import BtrfsTopology.DeviceSet
import BtrfsTopology.SubvolumeTree

/-!
# Filesystems

A filesystem is its identity and what was last learned of it. The mount table and the subvolume tree
are replaced as wholes; each time the subvolumes' mounts are taken from the table anew, so that the
two never disagree.

## Main definitions

* `Filesystem` — a filesystem
* `Filesystem.new` — a filesystem of which only identity, label and devices are known
* `Filesystem.updateMountpoints`, `Filesystem.updateSubvolumes` — replacing a part
* `Filesystem.toJson` — its record in a report
-/

namespace BtrfsTopology

/-- A filesystem. -/
structure Filesystem where
  uuid : String
  label : Option String
  devices : DeviceSet
  /-- The identifier of the subvolume that is mounted by default. -/
  defaultId : Nat
  mounts : MountTable
  subvolumes : SubvolumeTree
  deriving DecidableEq, Repr

namespace Filesystem

/-- A filesystem without mounts that has the top-level subvolume alone, which is its default. -/
def new (uuid : String) (label : Option String) (devices : List VfsPath) : Filesystem :=
  { uuid
    label
    devices := .ofDevices devices
    defaultId := Subvolume.topLevelId
    mounts := .empty
    subvolumes := .bare }

/-- Whether it lies on a device. -/
def hasDevice (fs : Filesystem) (device : VfsPath) : Bool :=
  fs.devices.hasDevice device

/-- Whether it is mounted anywhere. -/
def isMounted (fs : Filesystem) : Bool :=
  !fs.mounts.isEmpty

/-- The filesystem with another label. -/
def setLabel (fs : Filesystem) (label : Option String) : Filesystem :=
  { fs with label }

/-- The filesystem with those of the given mounts that are of its own devices. -/
def updateMountpoints (fs : Filesystem) (mountpoints : List Mountpoint) : Filesystem :=
  -- The mounts of a host are listed for all filesystems together.
  let mounts := MountTable.ofMountpoints (mountpoints.filter fun m => fs.hasDevice m.device)
  { fs with mounts, subvolumes := fs.subvolumes.attach mounts }

/-- The filesystem with the given subvolumes, mounted where its mounts say. -/
def updateSubvolumes (fs : Filesystem) (subvolumes : List Subvolume) : Filesystem :=
  { fs with subvolumes := (SubvolumeTree.ofSubvolumes subvolumes).attach fs.mounts }

/-- The first known subvolume in the order of the mounts. -/
def firstMountedSubvolume? (fs : Filesystem) : Option Subvolume :=
  fs.mounts.mountedIds.findSome? fs.subvolumes.get?

/-- The record of a filesystem in a report. -/
def toJson (fs : Filesystem) : Json :=
  .record
    [("uuid", .text fs.uuid), ("label", .ofOption .text fs.label),
      ("devices", .list (fs.devices.toList.map fun device => .text device.text)),
      ("default_subvolume", .number fs.defaultId),
      ("subvolumes", .list (fs.subvolumes.toList.map Subvolume.toJson))]

end Filesystem

end BtrfsTopology
