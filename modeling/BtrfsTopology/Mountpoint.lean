import BtrfsTopology.Text.Decimal
import BtrfsTopology.Text.Json
import BtrfsTopology.VfsPath

/-!
# Mountpoints

## Main definitions

* `Mountpoint` — a live mount of one subvolume
* `Mountpoint.describe` — its one-line text
* `Mountpoint.toJson` — its record in a report
-/

namespace BtrfsTopology

/-- A live mount of one subvolume. -/
structure Mountpoint where
  path : VfsPath
  device : VfsPath
  subvolumeId : Nat
  /-- The internal path of the mounted subvolume. -/
  subvolumePath : String
  deriving DecidableEq, Repr

/-- The one-line text of a mount. -/
def Mountpoint.describe (m : Mountpoint) : String :=
  "[ mountpoint: " ++ m.path.text ++ ", device: " ++ m.device.text ++ ", subvolid: " ++
    Text.writeWord m.subvolumeId ++ ", subvol: " ++ m.subvolumePath ++ " ]"

/-- The record of a mount in a report. -/
def Mountpoint.toJson (m : Mountpoint) : Json :=
  .record
    [("path", .text m.path.text), ("device", .text m.device.text),
      ("subvolume_id", .number m.subvolumeId), ("subvolume_path", .text m.subvolumePath)]

end BtrfsTopology
