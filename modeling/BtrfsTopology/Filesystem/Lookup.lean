import BtrfsTopology.Filesystem.Basic
import BtrfsTopology.SubvolumeTree.Resolution

/-!
# From mounted paths to subvolumes

A path of the mounted file tree lies in the subvolume of the innermost mount above it, or in one
below that. Of mounts on the same path the last covers the others.

## Main definitions

* `Mountpoint.innermost?` — the deepest of several mounts
* `Filesystem.lookup?` — the subvolume that a path of the mounted file tree lies in
-/

namespace BtrfsTopology

/-- How many components lead to a mount. -/
def Mountpoint.depth (m : Mountpoint) : Nat :=
  m.path.components.length

/-- The deepest of several mounts, the last of equally deep ones. -/
def Mountpoint.innermost? (mountpoints : List Mountpoint) : Option Mountpoint :=
  mountpoints.foldl
    (fun best m =>
      match best with
      | none => some m
      -- A later mount on the same place covers the earlier one.
      | some b => if b.depth ≤ m.depth then some m else some b)
    none

/-- The mounts at or above a path. -/
def Filesystem.mountsAbove (fs : Filesystem) (path : VfsPath) : List Mountpoint :=
  fs.mounts.mountpoints.filter fun m => path.startsWith m.path

/-- The subvolume that a path of the mounted file tree lies in; there is none when no mount of the
filesystem lies at or above the path. -/
def Filesystem.lookup? (fs : Filesystem) (path : VfsPath) : Option Subvolume := do
  let m ← Mountpoint.innermost? (fs.mountsAbove path)
  let rest ← path.below? m.path
  return fs.subvolumes.nearest (m.subvolumePath ++ "/" ++ rest)

end BtrfsTopology
