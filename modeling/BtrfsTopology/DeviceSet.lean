import BtrfsTopology.OrderedMap
import BtrfsTopology.VfsPath

/-!
# Device sets

The devices of a filesystem, one for each sequence of components and in the order of these. A device
given again under another text with the same components replaces the text.

## Main definitions

* `DeviceSet` — devices by their components
* `DeviceSet.ofDevices`, `DeviceSet.toList` — the set of a list, and the devices in order
* `DeviceSet.hasDevice` — membership by components
-/

namespace BtrfsTopology

/-- Devices by their components. -/
abbrev DeviceSet := OrderedMap (List VfsPath.Component) VfsPath

namespace DeviceSet

/-- The set of the listed devices; of devices with the same components it has the last. -/
def ofDevices (devices : List VfsPath) : DeviceSet :=
  OrderedMap.ofList (devices.map fun device => (device.components, device))

/-- The devices in the order of their components. -/
def toList (set : DeviceSet) : List VfsPath :=
  set.values

/-- Whether the set has a device with the components of `device`. -/
def hasDevice (set : DeviceSet) (device : VfsPath) : Bool :=
  set.contains device.components

end DeviceSet

end BtrfsTopology
