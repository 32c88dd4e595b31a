import BtrfsTopology.MountTable

/-!
# Mount tables and their index

The index of a mount table is made while the mounts are read one after another. It has, under the
identifier of a subvolume, just the mounts of that subvolume in the order of the listing.

## Main results

* `MountTable.forSubvolume_ofMountpoints` — looking a subvolume up selects its mounts
-/

namespace BtrfsTopology.MountTable

/-- The mounts of the table that are of one subvolume, in the order of the listing. -/
def mountsOf (table : MountTable) (id : Nat) : List Mountpoint :=
  table.mountpoints.filter fun m => m.subvolumeId = id

theorem mem_mountsOf {table : MountTable} {id : Nat} {m : Mountpoint} :
    m ∈ table.mountsOf id ↔ m ∈ table.mountpoints ∧ m.subvolumeId = id := by
  simp [mountsOf]

/-- The mounts that an index has of one subvolume. -/
private def indexed (index : OrderedMap Nat (List Mountpoint)) (id : Nat) : List Mountpoint :=
  (index.get? id).getD []

/-- Entering a mount adds it behind those of its subvolume. -/
private theorem indexed_enter (index : OrderedMap Nat (List Mountpoint)) (m : Mountpoint)
    (id : Nat) :
    indexed (enter index m) id = indexed index id ++ [m].filter fun m => m.subvolumeId = id := by
  rw [indexed, enter, OrderedMap.get?_insert]
  by_cases h : m.subvolumeId = id
  · subst h
    simp [indexed]
  · simp [h, indexed]

private theorem indexed_foldl_enter (mountpoints : List Mountpoint)
    (index : OrderedMap Nat (List Mountpoint)) (id : Nat) :
    indexed (mountpoints.foldl enter index) id =
      indexed index id ++ mountpoints.filter fun m => m.subvolumeId = id := by
  -- The index has the mounts before those of the list.
  induction mountpoints generalizing index with
  | nil => simp
  | cons m rest ih =>
    rw [List.foldl_cons, ih, indexed_enter, List.append_assoc, ← List.filter_append]
    rfl

/-- The index selects the mounts of a subvolume. -/
theorem forSubvolume_ofMountpoints (mountpoints : List Mountpoint) (id : Nat) :
    (ofMountpoints mountpoints).forSubvolume id = (ofMountpoints mountpoints).mountsOf id :=
  indexed_foldl_enter mountpoints .empty id

theorem forSubvolume_empty (id : Nat) : empty.forSubvolume id = empty.mountsOf id :=
  forSubvolume_ofMountpoints [] id

end BtrfsTopology.MountTable
