import BtrfsTopology.Proofs.InternalPath
import BtrfsTopology.Proofs.MountTable
import BtrfsTopology.Proofs.OrderedMap
import BtrfsTopology.SubvolumeTree
import Mathlib.Data.List.Induction

/-!
# The shape of subvolume trees

However a listing repeats or misstates its rows, the tree made of it has the top-level subvolume as
it has to be, and every other subvolume once and under its own identifier. Such a tree is traversed
from the top-level subvolume through strictly ascending identifiers, and looking an identifier up
finds the one subvolume that has it.

## Main definitions

* `SubvolumeTree.IsKeyed` — what holds of every tree that was made of a listing
* `SubvolumeTree.HasNormalPaths` — all paths are in normal form
* `SubvolumeTree.IsAttached` — the subvolumes' own mounts are those of a table
* `SubvolumeTree.listing` — the subvolumes without their mounts

## Main results

* `SubvolumeTree.isKeyed_ofSubvolumes`, `SubvolumeTree.IsKeyed.attach` — all trees are keyed
* `SubvolumeTree.IsKeyed.get?_eq_some_iff` — looking up finds the subvolume with the identifier
* `SubvolumeTree.get?_ofSubvolumes` — of listed subvolumes with the same identifier the last counts
* `SubvolumeTree.IsKeyed.isAttached_attach` — attaching a table leaves no other mounts behind
-/

namespace BtrfsTopology.SubvolumeTree

/-- The top-level subvolume is as it has to be, and every other one is stored under its own
identifier, in ascending order. -/
structure IsKeyed (tree : SubvolumeTree) : Prop where
  root_id : tree.root.id = Subvolume.topLevelId
  root_path : tree.root.path = "/"
  root_parent : tree.root.parent = none
  own_key : ∀ entry ∈ tree.others.entries, entry.2.id = entry.1
  other_id : ∀ entry ∈ tree.others.entries, entry.1 ≠ Subvolume.topLevelId
  /-- The others are in strictly ascending order, hence stored once. -/
  ascending : tree.others.IsAscending

/-- The path of every subvolume is in normal form. -/
def HasNormalPaths (tree : SubvolumeTree) : Prop :=
  ∀ s ∈ tree.toList, InternalPath.IsNormal s.path

/-- Every subvolume of the tree has the mounts that a table has of it. -/
def IsAttached (tree : SubvolumeTree) (mounts : MountTable) : Prop :=
  ∀ s ∈ tree.toList, s.mountpoints = mounts.forSubvolume s.id

/-- The subvolumes of the tree as a listing has them, each with its identifier, its path and its
parent but without mounts. -/
def listing (tree : SubvolumeTree) : List Subvolume :=
  tree.toList.map fun s => s.withMountpoints []

variable {tree : SubvolumeTree} {s : Subvolume} {id : Nat}

theorem mem_toList_iff :
    s ∈ tree.toList ↔ s = tree.root ∨ ∃ key, (key, s) ∈ tree.others.entries := by
  rw [toList, List.mem_cons, OrderedMap.mem_values_iff]

theorem root_mem_toList (tree : SubvolumeTree) : tree.root ∈ tree.toList :=
  List.mem_cons_self

theorem length_toList (tree : SubvolumeTree) : tree.toList.length = tree.size := by
  simp [toList, size, OrderedMap.size, OrderedMap.values]

theorem mem_toList_of_findPath? {path : String} (h : tree.findPath? path = some s) :
    s ∈ tree.toList :=
  List.mem_of_find?_eq_some h

theorem path_of_findPath? {path : String} (h : tree.findPath? path = some s) : s.path = path := by
  simpa using List.find?_some h

/-! ## Building -/

theorem isKeyed_bare : bare.IsKeyed where
  root_id := rfl
  root_path := rfl
  root_parent := rfl
  own_key := fun _ h => absurd h List.not_mem_nil
  other_id := fun _ h => absurd h List.not_mem_nil
  ascending := OrderedMap.isAscending_empty

theorem IsKeyed.insert (h : tree.IsKeyed) (s : Subvolume) : (tree.insert s).IsKeyed := by
  rw [SubvolumeTree.insert]
  split
  · exact { h with root_id := rfl, root_path := rfl, root_parent := rfl }
  · next hid =>
    refine { h with own_key := ?_, other_id := ?_, ascending := ?_ }
    · exact OrderedMap.forall_mem_entries_insert rfl h.own_key
    · exact OrderedMap.forall_mem_entries_insert hid h.other_id
    · exact h.ascending.insert s.id s

/-- The tree of any listing is keyed. -/
theorem isKeyed_ofSubvolumes (subvolumes : List Subvolume) : (ofSubvolumes subvolumes).IsKeyed := by
  suffices ∀ tree : SubvolumeTree, tree.IsKeyed → (subvolumes.foldl insert tree).IsKeyed from
    this bare isKeyed_bare
  induction subvolumes with
  | nil => exact fun _ h => h
  | cons s rest ih => exact fun tree h => ih (tree.insert s) (h.insert s)

/-- A listing leaves no path in the tree but its own and that of the top-level subvolume. -/
theorem forall_path_insert {p : String → Prop} (hroot : p "/") (hs : p s.path)
    (htree : ∀ s ∈ tree.toList, p s.path) : ∀ s' ∈ (tree.insert s).toList, p s'.path := by
  intro s' hs'
  rw [SubvolumeTree.insert] at hs'
  split at hs'
  -- Of a listed top-level subvolume the path is not taken.
  · rcases mem_toList_iff.1 hs' with rfl | hother
    · exact hroot
    · exact htree s' (mem_toList_iff.2 (.inr hother))
  · rcases mem_toList_iff.1 hs' with rfl | ⟨key, hentry⟩
    · exact htree tree.root tree.root_mem_toList
    · rcases OrderedMap.mem_entries_insert hentry with heq | hold
      · obtain ⟨rfl, rfl⟩ := Prod.mk.inj heq
        exact hs
      · exact htree s' (mem_toList_iff.2 (.inr ⟨key, hold⟩))

theorem forall_path_ofSubvolumes {p : String → Prop} {subvolumes : List Subvolume} (hroot : p "/")
    (h : ∀ s ∈ subvolumes, p s.path) : ∀ s ∈ (ofSubvolumes subvolumes).toList, p s.path := by
  suffices ∀ tree : SubvolumeTree, (∀ s ∈ tree.toList, p s.path) →
      ∀ s ∈ (subvolumes.foldl insert tree).toList, p s.path from
    this bare fun s hs => List.mem_singleton.1 hs ▸ hroot
  induction subvolumes with
  | nil => exact fun _ htree => htree
  | cons s rest ih =>
    intro tree htree
    exact ih (fun s' hs' => h s' (List.mem_cons_of_mem s hs')) (tree.insert s)
      (forall_path_insert hroot (h s List.mem_cons_self) htree)

/-! ## Looking up -/

theorem IsKeyed.id_ne_topLevelId (h : tree.IsKeyed) {key : Nat}
    (hentry : (key, s) ∈ tree.others.entries) : s.id ≠ Subvolume.topLevelId :=
  h.own_key _ hentry ▸ h.other_id _ hentry

/-- Looking an identifier up finds the subvolume that has it. -/
theorem IsKeyed.get?_eq_some_iff (h : tree.IsKeyed) :
    tree.get? id = some s ↔ s ∈ tree.toList ∧ s.id = id := by
  rw [get?, mem_toList_iff]
  by_cases hid : id = Subvolume.topLevelId
  -- The top-level subvolume is stored apart and has its identifier alone.
  · rw [if_pos hid, Option.some_inj]
    constructor
    · rintro rfl
      exact ⟨.inl rfl, h.root_id.trans hid.symm⟩
    · rintro ⟨rfl | ⟨key, hentry⟩, hs⟩
      · rfl
      · exact absurd (hs.trans hid) (h.id_ne_topLevelId hentry)
  · rw [if_neg hid, h.ascending.get?_eq_some_iff]
    constructor
    · intro hentry
      exact ⟨.inr ⟨id, hentry⟩, h.own_key _ hentry⟩
    · rintro ⟨rfl | ⟨key, hentry⟩, hs⟩
      · exact absurd (hs.symm.trans h.root_id) hid
      · obtain rfl : key = id := (h.own_key _ hentry).symm.trans hs
        exact hentry

/-- Looking up sees the subvolume that was put in last under the identifier. -/
theorem get?_insert (tree : SubvolumeTree) (s : Subvolume) (hid : id ≠ Subvolume.topLevelId) :
    (tree.insert s).get? id = if s.id = id then some s else tree.get? id := by
  rw [SubvolumeTree.insert]
  by_cases hs : s.id = Subvolume.topLevelId
  · have hne : s.id ≠ id := fun h => hid (h.symm.trans hs)
    rw [if_pos hs, if_neg hne, get?, get?, if_neg hid, if_neg hid]
  · rw [if_neg hs, get?, get?, if_neg hid, if_neg hid, OrderedMap.get?_insert]

/-- Of the listed subvolumes with an identifier the last is in the tree. -/
theorem get?_ofSubvolumes (subvolumes : List Subvolume) (hid : id ≠ Subvolume.topLevelId) :
    (ofSubvolumes subvolumes).get? id = subvolumes.reverse.find? fun s => s.id = id := by
  induction subvolumes using List.reverseRecOn with
  | nil => rw [ofSubvolumes, List.foldl_nil, get?, if_neg hid]; rfl
  | append_singleton front s ih =>
    have hlast : ofSubvolumes (front ++ [s]) = (ofSubvolumes front).insert s := by
      simp [ofSubvolumes]
    rw [hlast, get?_insert _ _ hid, ih, List.reverse_append, List.reverse_singleton,
      List.singleton_append, List.find?_cons]
    by_cases hs : s.id = id <;> simp [hs]

theorem IsKeyed.get?_id (h : tree.IsKeyed) (hs : s ∈ tree.toList) : tree.get? s.id = some s :=
  h.get?_eq_some_iff.2 ⟨hs, rfl⟩

/-- The identifiers in the tree are those that something is found under. -/
theorem IsKeyed.mem_ids_iff (h : tree.IsKeyed) :
    id ∈ tree.toList.map Subvolume.id ↔ (tree.get? id).isSome := by
  simp [Option.isSome_iff_exists, h.get?_eq_some_iff]

/-- Only the top-level subvolume has its identifier. -/
theorem IsKeyed.eq_root (h : tree.IsKeyed) (hs : s ∈ tree.toList)
    (hid : s.id = Subvolume.topLevelId) : s = tree.root := by
  rcases mem_toList_iff.1 hs with rfl | ⟨key, hentry⟩
  · rfl
  · exact absurd hid (h.id_ne_topLevelId hentry)

/-- The subvolumes below the top level come in strictly ascending order of their identifiers. -/
theorem IsKeyed.ids_ascending (h : tree.IsKeyed) :
    (tree.others.values.map Subvolume.id).Pairwise (· < ·) := by
  have hkeys : tree.others.values.map Subvolume.id = tree.others.keys := by
    rw [OrderedMap.values, List.map_map]
    exact List.map_congr_left h.own_key
  rw [hkeys]
  exact h.ascending

/-- No identifier is there twice. -/
theorem IsKeyed.nodup_ids (h : tree.IsKeyed) : (tree.toList.map Subvolume.id).Nodup := by
  rw [toList, List.map_cons, List.nodup_cons]
  refine ⟨fun hmem => ?_, h.ids_ascending.imp Nat.ne_of_lt⟩
  obtain ⟨s, hs, hid⟩ := List.mem_map.1 hmem
  obtain ⟨key, hentry⟩ := OrderedMap.mem_values_iff.1 hs
  exact h.id_ne_topLevelId hentry (hid.trans h.root_id)

/-! ## Attaching mounts -/

/-- The table that was attached last is the only one that counts. -/
@[simp] theorem attach_attach (tree : SubvolumeTree) (mounts mounts' : MountTable) :
    (tree.attach mounts).attach mounts' = tree.attach mounts' := by
  simp [attach, Subvolume.withMountpoints]

/-- What is listed of subvolumes are not their mounts. -/
@[simp] theorem listing_attach (tree : SubvolumeTree) (mounts : MountTable) :
    (tree.attach mounts).listing = tree.listing := by
  simp [listing, toList, attach, OrderedMap.values, OrderedMap.mapValues, Subvolume.withMountpoints]

/-- Attaching changes the mounts of subvolumes and nothing else. -/
theorem IsKeyed.mem_toList_attach (h : tree.IsKeyed) (mounts : MountTable) :
    s ∈ (tree.attach mounts).toList ↔
      ∃ s' ∈ tree.toList, s = s'.withMountpoints (mounts.forSubvolume s'.id) := by
  have hroot : (tree.attach mounts).root =
      tree.root.withMountpoints (mounts.forSubvolume tree.root.id) := by
    rw [attach, h.root_id]
  simp only [mem_toList_iff, hroot]
  constructor
  · rintro (rfl | ⟨key, hentry⟩)
    · exact ⟨tree.root, .inl rfl, rfl⟩
    · obtain ⟨s', hs', heq⟩ := OrderedMap.mem_entries_mapValues.1 hentry
      refine ⟨s', .inr ⟨key, hs'⟩, ?_⟩
      rw [h.own_key _ hs']
      exact heq.symm
  · rintro ⟨s', rfl | ⟨key, hentry⟩, rfl⟩
    · exact .inl rfl
    · refine .inr ⟨key, OrderedMap.mem_entries_mapValues.2 ⟨s', hentry, ?_⟩⟩
      rw [h.own_key _ hentry]

theorem IsKeyed.attach (h : tree.IsKeyed) (mounts : MountTable) : (tree.attach mounts).IsKeyed where
  root_id := h.root_id
  root_path := h.root_path
  root_parent := h.root_parent
  own_key := by
    intro entry hentry
    obtain ⟨s', hs', heq⟩ := OrderedMap.mem_entries_mapValues.1 hentry
    rw [← heq]
    exact h.own_key _ hs'
  other_id := by
    intro entry hentry
    obtain ⟨s', hs', -⟩ := OrderedMap.mem_entries_mapValues.1 hentry
    exact h.other_id (entry.1, s') hs'
  ascending := h.ascending.mapValues _

theorem get?_attach (tree : SubvolumeTree) (mounts : MountTable) (id : Nat) :
    (tree.attach mounts).get? id =
      (tree.get? id).map fun s => s.withMountpoints (mounts.forSubvolume id) := by
  by_cases hid : id = Subvolume.topLevelId
  · subst hid
    rfl
  · rw [get?, get?, if_neg hid, if_neg hid, attach, OrderedMap.get?_mapValues]

/-- The top-level subvolume after a table was attached. -/
theorem IsKeyed.root_attach (h : tree.IsKeyed) (mounts : MountTable) :
    (tree.attach mounts).root =
      ⟨Subvolume.topLevelId, "/", none, mounts.forSubvolume Subvolume.topLevelId⟩ := by
  rw [SubvolumeTree.attach, Subvolume.withMountpoints, h.root_id, h.root_path, h.root_parent]

/-- After a table was attached, the subvolumes have its mounts and no others. -/
theorem IsKeyed.isAttached_attach (h : tree.IsKeyed) (mounts : MountTable) :
    (tree.attach mounts).IsAttached mounts := by
  intro s hs
  obtain ⟨s', -, rfl⟩ := (h.mem_toList_attach mounts).1 hs
  rfl

theorem IsKeyed.forall_path_attach (h : tree.IsKeyed) (mounts : MountTable) {p : String → Prop}
    (htree : ∀ s ∈ tree.toList, p s.path) : ∀ s ∈ (tree.attach mounts).toList, p s.path := by
  intro s hs
  obtain ⟨s', hs', rfl⟩ := (h.mem_toList_attach mounts).1 hs
  exact htree s' hs'

end BtrfsTopology.SubvolumeTree
