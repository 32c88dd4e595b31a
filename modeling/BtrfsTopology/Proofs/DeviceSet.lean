import BtrfsTopology.DeviceSet
import BtrfsTopology.Proofs.OrderedMap

/-!
# Devices in a set

The set of listed devices is keyed by their components, so that asking for a device asks whether
one of the set denotes the same place.

## Main definitions

* `DeviceSet.IsKeyed` — every device stands under its components

## Main results

* `DeviceSet.IsKeyed.hasDevice_iff` — membership is equality of components with a device of the set
-/

namespace BtrfsTopology.DeviceSet

/-- Every device stands under its components. -/
def IsKeyed (set : DeviceSet) : Prop :=
  ∀ entry ∈ set.entries, entry.2.components = entry.1

theorem isKeyed_ofDevices (devices : List VfsPath) : (ofDevices devices).IsKeyed := by
  apply OrderedMap.forall_mem_entries_ofList
  intro entry hentry
  obtain ⟨device, -, rfl⟩ := List.mem_map.1 hentry
  rfl

/-- A device is in the set when one of the set has its components. -/
theorem IsKeyed.hasDevice_iff {set : DeviceSet} (h : set.IsKeyed) {device : VfsPath} :
    set.hasDevice device ↔ ∃ known ∈ set.toList, known.sameAs device := by
  rw [hasDevice, OrderedMap.contains_iff]
  constructor
  · rintro ⟨known, hentry⟩
    exact ⟨known, OrderedMap.mem_values_iff.2 ⟨_, hentry⟩, decide_eq_true (h _ hentry)⟩
  · rintro ⟨known, hknown, hsame⟩
    obtain ⟨key, hentry⟩ := OrderedMap.mem_values_iff.1 hknown
    have hkey : key = device.components := (h _ hentry).symm.trans (of_decide_eq_true hsame)
    exact ⟨known, hkey ▸ hentry⟩

end BtrfsTopology.DeviceSet
