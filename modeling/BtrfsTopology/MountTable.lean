import BtrfsTopology.Mountpoint
import BtrfsTopology.OrderedMap

/-!
# Mount tables

The live mounts of one filesystem in the order in which they were listed, with an index by the
mounted subvolume.

## Main definitions

* `MountTable` — mounts and their index
* `MountTable.ofMountpoints` — the table of a list of mounts
* `MountTable.forSubvolume` — the mounts of one subvolume
* `MountTable.first?` — a mount through which the filesystem can be queried
-/

namespace BtrfsTopology

/-- The mounts of one filesystem. -/
structure MountTable where
  mountpoints : List Mountpoint
  /-- The mounts of each mounted subvolume, in the same order. -/
  index : OrderedMap Nat (List Mountpoint)
  deriving DecidableEq, Repr

namespace MountTable

/-- The table without mounts. -/
def empty : MountTable := ⟨[], .empty⟩

/-- Enters a mount into an index, behind those of the same subvolume. -/
def enter (index : OrderedMap Nat (List Mountpoint)) (m : Mountpoint) :
    OrderedMap Nat (List Mountpoint) :=
  index.insert m.subvolumeId ((index.get? m.subvolumeId).getD [] ++ [m])

/-- The table of a list of mounts. -/
def ofMountpoints (mountpoints : List Mountpoint) : MountTable :=
  ⟨mountpoints, mountpoints.foldl enter .empty⟩

/-- The mounts of one subvolume, in the order of the listing. -/
def forSubvolume (table : MountTable) (id : Nat) : List Mountpoint :=
  (table.index.get? id).getD []

/-- The first mount of the listing. -/
def first? (table : MountTable) : Option Mountpoint :=
  table.mountpoints.head?

/-- The subvolume of each mount, in the order of the listing. -/
def mountedIds (table : MountTable) : List Nat :=
  table.mountpoints.map Mountpoint.subvolumeId

/-- The number of mounts. -/
def size (table : MountTable) : Nat :=
  table.mountpoints.length

/-- Whether there is no mount. -/
def isEmpty (table : MountTable) : Bool :=
  table.mountpoints.isEmpty

end MountTable

end BtrfsTopology
