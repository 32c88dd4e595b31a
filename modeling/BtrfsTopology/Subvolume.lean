import BtrfsTopology.InternalPath
import BtrfsTopology.Mountpoint

/-!
# Subvolumes

A subvolume knows its parent by identifier only; the tree it stands in resolves it.

## Main definitions

* `Subvolume` — a subvolume with its mounts
* `Subvolume.ofListed` — a subvolume as a listing gives it
* `Subvolume.topLevel` — the subvolume that every filesystem has
* `Subvolume.toJson` — its record in a report
-/

namespace BtrfsTopology

/-- A subvolume of a filesystem. -/
structure Subvolume where
  id : Nat
  /-- The internal path in normal form. -/
  path : String
  /-- The identifier of the subvolume that contains it. -/
  parent : Option Nat
  mountpoints : List Mountpoint
  deriving DecidableEq, Repr

namespace Subvolume

/-- The identifier of the top-level subvolume of every filesystem. -/
def topLevelId : Nat := 5

/-- A subvolume without mounts, its path brought into normal form. -/
def ofListed (id : Nat) (path : String) (parent : Option Nat) : Subvolume :=
  ⟨id, InternalPath.normalize path, parent, []⟩

/-- The top-level subvolume, without mounts. -/
def topLevel : Subvolume :=
  ofListed topLevelId "/" none

/-- The last segment of the path; that of the top-level subvolume is empty. -/
def name (s : Subvolume) : String :=
  InternalPath.name s.path

/-- Whether the subvolume is mounted. -/
def isMounted (s : Subvolume) : Bool :=
  !s.mountpoints.isEmpty

/-- Whether it is the top-level subvolume. -/
def isTopLevel (s : Subvolume) : Bool :=
  s.id = topLevelId

/-- What is left of a path behind that of the subvolume. -/
def relativeChild (s : Subvolume) (child : String) : Except TopologyError String :=
  InternalPath.relativeChild s.path child

/-- The subvolume with other mounts. -/
def withMountpoints (s : Subvolume) (mountpoints : List Mountpoint) : Subvolume :=
  { s with mountpoints }

/-- The record of a subvolume in a report. -/
def toJson (s : Subvolume) : Json :=
  .record
    [("id", .number s.id), ("path", .text s.path), ("parent", .ofOption .number s.parent),
      ("mountpoints", .list (s.mountpoints.map Mountpoint.toJson))]

end Subvolume

end BtrfsTopology
