import BtrfsTopology.Filesystem.Basic
import BtrfsTopology.Proofs.SubvolumeTree
import BtrfsTopology.SubvolumeTree.Resolution
import Mathlib.Logic.Relation

/-!
# Going down and up the tree

A subvolume states its parent, and the children of a subvolume are those that state it. A listing
may state parents that it does not have, and subvolumes that are each other's parents. Whatever it
states, a step down from a known subvolume is a step up taken back. As a subvolume has one parent at
most and the top level has none, what the steps down from the top level lead to is what the steps up
lead from, and there is no choice on the way.

## Main definitions

* `SubvolumeTree.HasChild`, `SubvolumeTree.HasParent` — one step down and one step up
* `SubvolumeTree.Descends` — a way down from the top level with all that it passes

## Main results

* `SubvolumeTree.IsKeyed.hasChild_iff_parent?` — the children are those with the parent
* `SubvolumeTree.IsKeyed.children_ascending` — the children come in ascending order
* `SubvolumeTree.IsKeyed.reached_iff` — going down from the top level and going up to it
* `SubvolumeTree.IsKeyed.descends_unique` — there is one way down
* `Filesystem.navigation_agrees` — all of this for the tree of any listing
-/

namespace BtrfsTopology

namespace SubvolumeTree

variable {tree : SubvolumeTree} {s above : Subvolume} {id p p' : Nat} {passed passed' : List Nat}

/-- One step down: among the children under one identifier is a subvolume with the other. -/
def HasChild (tree : SubvolumeTree) (p id : Nat) : Prop :=
  id ∈ (tree.children p).map Subvolume.id

/-- One step up: the subvolume with one identifier has a known parent with the other. -/
def HasParent (tree : SubvolumeTree) (id p : Nat) : Prop :=
  (tree.parent? id).map Subvolume.id = some p

instance (tree : SubvolumeTree) (p id : Nat) : Decidable (tree.HasChild p id) :=
  inferInstanceAs (Decidable (id ∈ (tree.children p).map Subvolume.id))

instance (tree : SubvolumeTree) (id p : Nat) : Decidable (tree.HasParent id p) :=
  inferInstanceAs (Decidable ((tree.parent? id).map Subvolume.id = some p))

/-- Steps down lead from the top level to an identifier. Given with it are those that the way
passes before, the last one first. -/
inductive Descends (tree : SubvolumeTree) : List Nat → Nat → Prop where
  /-- The way begins at the top level. -/
  | top : Descends tree [] Subvolume.topLevelId
  /-- It goes on to a child. -/
  | step {passed : List Nat} {p id : Nat} (h : Descends tree passed p)
      (hchild : tree.HasChild p id) : Descends tree (p :: passed) id

@[simp] theorem get?_topLevelId (tree : SubvolumeTree) :
    tree.get? Subvolume.topLevelId = some tree.root :=
  if_pos rfl

/-! ## One step -/

/-- The children are the subvolumes of the tree that state the parent. -/
theorem IsKeyed.mem_children_iff (h : tree.IsKeyed) :
    s ∈ tree.children p ↔ s ∈ tree.toList ∧ s.parent = some p := by
  rw [children, List.mem_filter, decide_eq_true_iff, toList, List.mem_cons]
  constructor
  · rintro ⟨hs, hparent⟩
    exact ⟨.inr hs, hparent⟩
  · rintro ⟨rfl | hs, hparent⟩
    -- The top-level subvolume states none.
    · exact absurd (hparent.symm.trans h.root_parent) (Option.some_ne_none p)
    · exact ⟨hs, hparent⟩

theorem IsKeyed.hasChild_iff (h : tree.IsKeyed) :
    tree.HasChild p id ↔ ∃ s, tree.get? id = some s ∧ s.parent = some p := by
  simp only [HasChild, List.mem_map, h.mem_children_iff, h.get?_eq_some_iff]
  constructor
  · rintro ⟨s, ⟨hs, hparent⟩, hid⟩
    exact ⟨s, ⟨hs, hid⟩, hparent⟩
  · rintro ⟨s, ⟨hs, hid⟩, hparent⟩
    exact ⟨s, ⟨hs, hparent⟩, hid⟩

/-- Among the children of a known subvolume are those whose parent it is. -/
theorem IsKeyed.hasChild_iff_parent? (h : tree.IsKeyed) (habove : tree.get? p = some above) :
    tree.HasChild p id ↔ tree.parent? id = some above := by
  rw [h.hasChild_iff, parent?, Option.bind_eq_some_iff]
  constructor
  · rintro ⟨s, hs, hparent⟩
    exact ⟨p, Option.bind_eq_some_iff.2 ⟨s, hs, hparent⟩, habove⟩
  · rintro ⟨p', hp', habove'⟩
    obtain ⟨s, hs, hparent⟩ := Option.bind_eq_some_iff.1 hp'
    -- One subvolume is not found under two identifiers.
    obtain rfl : p' = p :=
      (h.get?_eq_some_iff.1 habove').2.symm.trans (h.get?_eq_some_iff.1 habove).2
    exact ⟨s, hs, hparent⟩

/-- A step up is a step down from a known subvolume taken back. -/
theorem IsKeyed.hasParent_iff (h : tree.IsKeyed) :
    tree.HasParent id p ↔ (tree.get? p).isSome ∧ tree.HasChild p id := by
  rw [HasParent, Option.map_eq_some_iff, Option.isSome_iff_exists]
  constructor
  · rintro ⟨above, hparent, rfl⟩
    obtain ⟨p, -, hp⟩ := Option.bind_eq_some_iff.1 hparent
    have habove : tree.get? above.id = some above := h.get?_id (h.get?_eq_some_iff.1 hp).1
    exact ⟨⟨above, habove⟩, (h.hasChild_iff_parent? habove).2 hparent⟩
  · rintro ⟨⟨above, habove⟩, hchild⟩
    exact ⟨above, (h.hasChild_iff_parent? habove).1 hchild, (h.get?_eq_some_iff.1 habove).2⟩

/-- What is a child of something is in the tree. -/
theorem IsKeyed.isSome_of_hasChild (h : tree.IsKeyed) (hchild : tree.HasChild p id) :
    (tree.get? id).isSome := by
  obtain ⟨s, hs, -⟩ := h.hasChild_iff.1 hchild
  exact Option.isSome_of_eq_some hs

/-- Nothing is a child of two. -/
theorem IsKeyed.hasChild_unique (h : tree.IsKeyed) (hchild : tree.HasChild p id)
    (hchild' : tree.HasChild p' id) : p = p' := by
  obtain ⟨s, hs, hparent⟩ := h.hasChild_iff.1 hchild
  obtain ⟨s', hs', hparent'⟩ := h.hasChild_iff.1 hchild'
  obtain rfl := Option.some.inj (hs.symm.trans hs')
  exact Option.some.inj (hparent.symm.trans hparent')

/-- The top level is no child. -/
theorem IsKeyed.not_hasChild_topLevelId (h : tree.IsKeyed) :
    ¬ tree.HasChild p Subvolume.topLevelId := by
  intro hchild
  obtain ⟨s, hs, hparent⟩ := h.hasChild_iff.1 hchild
  obtain rfl := Option.some.inj (tree.get?_topLevelId.symm.trans hs)
  exact absurd (hparent.symm.trans h.root_parent) (Option.some_ne_none p)

/-- The children come in strictly ascending order of their identifiers. -/
theorem IsKeyed.children_ascending (h : tree.IsKeyed) (p : Nat) :
    ((tree.children p).map Subvolume.id).Pairwise (· < ·) :=
  h.ids_ascending.sublist (List.filter_sublist.map Subvolume.id)

/-- What has a known parent is a child of one known subvolume. -/
theorem IsKeyed.existsUnique_hasChild (h : tree.IsKeyed) (hparent : (tree.parent? id).isSome) :
    ∃! p, (tree.get? p).isSome ∧ tree.HasChild p id := by
  obtain ⟨above, habove⟩ := Option.isSome_iff_exists.1 hparent
  have hup : tree.HasParent id above.id := congrArg (Option.map Subvolume.id) habove
  obtain ⟨hknown, hchild⟩ := h.hasParent_iff.1 hup
  exact ⟨above.id, ⟨hknown, hchild⟩, fun _ hp => h.hasChild_unique hp.2 hchild⟩

/-- What has no known parent is a child of no known subvolume. -/
theorem IsKeyed.not_hasChild_of_parent? (h : tree.IsKeyed) (hparent : tree.parent? id = none)
    (hp : (tree.get? p).isSome) : ¬ tree.HasChild p id := by
  intro hchild
  have hup : tree.HasParent id p := h.hasParent_iff.2 ⟨hp, hchild⟩
  rw [HasParent, hparent] at hup
  exact Option.some_ne_none p hup.symm

/-! ## Any number of steps -/

/-- All that the steps down from the top level lead to is in the tree. -/
theorem IsKeyed.isSome_of_reached (h : tree.IsKeyed)
    (hdown : Relation.ReflTransGen tree.HasChild Subvolume.topLevelId id) :
    (tree.get? id).isSome := by
  cases hdown with
  | refl => exact Option.isSome_of_eq_some tree.get?_topLevelId
  | tail _ hchild => exact h.isSome_of_hasChild hchild

/-- Steps down lead from the top level to where steps up lead to it from. -/
theorem IsKeyed.reached_iff (h : tree.IsKeyed) :
    Relation.ReflTransGen tree.HasChild Subvolume.topLevelId id ↔
      Relation.ReflTransGen tree.HasParent id Subvolume.topLevelId := by
  constructor
  · intro hdown
    induction hdown with
    | refl => exact .refl
    | tail hdown hchild ih =>
      -- The last step starts from a known subvolume, because the way to it began at the top level.
      exact .head (h.hasParent_iff.2 ⟨h.isSome_of_reached hdown, hchild⟩) ih
  · intro hup
    induction hup using Relation.ReflTransGen.head_induction_on with
    | refl => exact .refl
    | head hparent _ ih => exact ih.tail (h.hasParent_iff.1 hparent).2

/-- Steps down lead to just what there is a way down to. -/
theorem exists_descends_iff : (∃ passed, tree.Descends passed id) ↔
    Relation.ReflTransGen tree.HasChild Subvolume.topLevelId id := by
  constructor
  · rintro ⟨passed, hdown⟩
    induction hdown with
    | top => exact .refl
    | step _ hchild ih => exact ih.tail hchild
  · intro hdown
    induction hdown with
    | refl => exact ⟨[], .top⟩
    | @tail p _ _ hchild ih =>
      obtain ⟨passed, hpassed⟩ := ih
      exact ⟨p :: passed, .step hpassed hchild⟩

/-- There is no choice on the way down to a subvolume. -/
theorem IsKeyed.descends_unique (h : tree.IsKeyed) (hdown : tree.Descends passed id)
    (hdown' : tree.Descends passed' id) : passed = passed' := by
  induction hdown generalizing passed' with
  | top =>
    cases hdown' with
    | top => rfl
    | step _ hchild => exact absurd hchild h.not_hasChild_topLevelId
  | step _ hchild ih =>
    cases hdown' with
    | top => exact absurd hchild h.not_hasChild_topLevelId
    | step hdown' hchild' =>
      obtain rfl := h.hasChild_unique hchild hchild'
      rw [ih hdown']

/-- Where steps down lead there is one way down. -/
theorem IsKeyed.existsUnique_descends_iff (h : tree.IsKeyed) :
    (∃! passed, tree.Descends passed id) ↔
      Relation.ReflTransGen tree.HasChild Subvolume.topLevelId id := by
  rw [← exists_descends_iff]
  constructor
  · exact ExistsUnique.exists
  · rintro ⟨passed, hpassed⟩
    exact ⟨passed, hpassed, fun _ hother => h.descends_unique hother hpassed⟩

end SubvolumeTree

namespace Filesystem

/-- Whatever subvolumes a filesystem is given, going down its tree and going up agree. The children
of a known subvolume are just those whose parent it is. The children of anything are subvolumes of
the tree in strictly ascending order, never the top level; what has a known parent is a child of one
known subvolume, and all else of none. Steps down lead from the top level to just what steps up lead
to it from, and there is one way down to each of these. -/
theorem navigation_agrees (fs : Filesystem) (listed : List Subvolume) :
    let tree := (fs.updateSubvolumes listed).subvolumes
    (∀ p above, tree.get? p = some above → ∀ id,
      tree.HasChild p id ↔ tree.parent? id = some above) ∧
    (∀ p, (∀ child ∈ tree.children p, tree.get? child.id = some child) ∧
      ((tree.children p).map Subvolume.id).Pairwise (· < ·) ∧
      ¬ tree.HasChild p Subvolume.topLevelId) ∧
    (∀ id, ((tree.parent? id).isSome → ∃! p, (tree.get? p).isSome ∧ tree.HasChild p id) ∧
      (tree.parent? id = none → ∀ p, (tree.get? p).isSome → ¬ tree.HasChild p id)) ∧
    ∀ id, (Relation.ReflTransGen tree.HasChild Subvolume.topLevelId id ↔
        Relation.ReflTransGen tree.HasParent id Subvolume.topLevelId) ∧
      (Relation.ReflTransGen tree.HasChild Subvolume.topLevelId id ↔
        ∃! passed, tree.Descends passed id) := by
  intro tree
  have h : tree.IsKeyed := (SubvolumeTree.isKeyed_ofSubvolumes listed).attach fs.mounts
  refine ⟨fun p above habove id => h.hasChild_iff_parent? habove, fun p => ⟨?_, ?_, ?_⟩,
    fun id => ⟨?_, ?_⟩, fun id => ⟨h.reached_iff, h.existsUnique_descends_iff.symm⟩⟩
  · intro child hchild
    exact h.get?_id (h.mem_children_iff.1 hchild).1
  · exact h.children_ascending p
  · exact h.not_hasChild_topLevelId
  · exact h.existsUnique_hasChild
  · intro hparent p hp
    exact h.not_hasChild_of_parent? hparent hp

/-- A listing that repeats an identifier and misstates the top level, with two subvolumes that are
each other's parents and one whose parent is not listed. -/
theorem navigation_agrees_beside_circle :
    let listed : List Subvolume :=
      [.ofListed 257 "/old" (some 300), .ofListed 300 "/x" (some 301),
        .ofListed 301 "/y" (some 300), .ofListed 400 "/lost" (some 999),
        .ofListed 5 "/odd" (some 256), .ofListed 256 "/a" (some 5), .ofListed 257 "/a/b" (some 256)]
    let tree := ((new "1111" none []).updateSubvolumes listed).subvolumes
    (tree.get? 300 = some (.ofListed 300 "/x" (some 301)) ∧ tree.HasChild 300 301 ∧
      ¬ tree.HasChild 300 257) ∧
    ((tree.parent? 257).isSome ∧ ∃! p, (tree.get? p).isSome ∧ tree.HasChild p 257) ∧
    (tree.parent? 400 = none ∧ tree.HasChild 999 400 ∧
      ∀ p, (tree.get? p).isSome → ¬ tree.HasChild p 400) ∧
    Relation.ReflTransGen tree.HasParent 257 Subvolume.topLevelId ∧
    ∀ passed, tree.Descends passed 257 ↔ passed = [256, 5] := by
  intro listed tree
  obtain ⟨hchildren, -, hlists, hways⟩ := navigation_agrees (new "1111" none []) listed
  have hcircle : tree.get? 300 = some (.ofListed 300 "/x" (some 301)) := by decide
  have hparent : (tree.parent? 257).isSome := by decide
  have hlost : tree.parent? 400 = none := by decide
  have hup : Relation.ReflTransGen tree.HasParent 257 Subvolume.topLevelId :=
    .head (show tree.HasParent 257 256 by decide) (.single (by decide))
  refine ⟨⟨hcircle, (hchildren 300 _ hcircle 301).2 (by decide), fun hchild => ?_⟩,
    ⟨hparent, (hlists 257).1 hparent⟩, ⟨hlost, by decide, (hlists 400).2 hlost⟩, hup,
    fun passed => ⟨fun hdown => ?_, ?_⟩⟩
  · -- The older row with this identifier does not count.
    exact absurd ((hchildren 300 _ hcircle 257).1 hchild) (by decide)
  · have hway : tree.Descends [256, 5] 257 := .step (.step .top (by decide)) (by decide)
    obtain ⟨hagree, hone⟩ := hways 257
    exact (hone.1 (hagree.2 hup)).unique hdown hway
  · rintro rfl
    exact .step (.step .top (by decide)) (by decide)

end Filesystem

end BtrfsTopology
