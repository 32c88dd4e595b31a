import BtrfsTopology.Proofs.SubvolumeTree
import BtrfsTopology.SubvolumeTree.Resolution
import Mathlib.Data.List.Nodup
import Mathlib.Data.List.Perm.Subperm

/-!
# The way up to a mount

Parents are known by identifier only, so the way up from a subvolume may end at an unknown one or
run in a circle. The search for a mounted subvolume therefore counts its steps. The count is no
restriction: a way that meets a mount at all visits no subvolume twice before it does.

## Main definitions

* `SubvolumeTree.parentOf?` — one step up
* `SubvolumeTree.Climbs` — the way up reaches the first mount in a number of steps, without a bound
* `SubvolumeTree.ascend` — where a number of steps up lead

## Main results

* `SubvolumeTree.Climbs.unique` — the way up is determined
* `SubvolumeTree.Climbs.lt_size` — a way that meets a mount is shorter than the tree is large
* `SubvolumeTree.mountedAncestor?_eq_some_iff` — the counted search finds what the way up reaches
* `SubvolumeTree.climbs_iff` — the way up reaches the first mounted one in the sequence of parents
* `SubvolumeTree.ends_or_recurs` — a way up ends, or it runs in a circle no longer than the tree
-/

namespace BtrfsTopology.SubvolumeTree

variable {tree : SubvolumeTree} {s : Subvolume} {id n k steps : Nat}
  {reached reached' : Subvolume × Mountpoint}

/-- The subvolume that the parent of `s` is, if it is known. -/
def parentOf? (tree : SubvolumeTree) (s : Subvolume) : Option Subvolume :=
  s.parent.bind tree.get?

/-- The way up from a subvolume, itself included, reaches the first one with a mount after so many
steps. It is given with its first mount. -/
inductive Climbs (tree : SubvolumeTree) : Nat → Subvolume → Subvolume × Mountpoint → Prop where
  /-- The subvolume is mounted itself. -/
  | arrived {s : Subvolume} {m : Mountpoint} (hm : s.mountpoints.head? = some m) :
      Climbs tree 0 s (s, m)
  /-- It is not, and its parent leads on. -/
  | step {n : Nat} {s above : Subvolume} {reached : Subvolume × Mountpoint}
      (hs : s.mountpoints.head? = none) (hup : tree.parentOf? s = some above)
      (h : Climbs tree n above reached) : Climbs tree (n + 1) s reached

theorem mem_toList_of_get? (h : tree.get? id = some s) : s ∈ tree.toList := by
  rw [get?] at h
  split at h
  · obtain rfl := Option.some.inj h
    exact tree.root_mem_toList
  · exact mem_toList_iff.2 (.inr ⟨id, OrderedMap.mem_entries_of_get? h⟩)

theorem mem_toList_of_parentOf? {above : Subvolume} (h : tree.parentOf? s = some above) :
    above ∈ tree.toList := by
  obtain ⟨id, -, hid⟩ := Option.bind_eq_some_iff.1 h
  exact mem_toList_of_get? hid

/-- What the way up reaches has the mount that it is given with. -/
theorem Climbs.head?_mountpoints (h : tree.Climbs n s reached) :
    reached.1.mountpoints.head? = some reached.2 := by
  induction h with
  | arrived hm => exact hm
  | step _ _ _ ih => exact ih

theorem Climbs.mem_toList (h : tree.Climbs n s reached) (hs : s ∈ tree.toList) :
    reached.1 ∈ tree.toList := by
  induction h with
  | arrived _ => exact hs
  | step _ hup _ ih => exact ih (mem_toList_of_parentOf? hup)

/-- From one subvolume there is one way up. -/
theorem Climbs.unique (h : tree.Climbs n s reached) (h' : tree.Climbs k s reached') :
    n = k ∧ reached = reached' := by
  induction h generalizing k with
  | arrived hm =>
    cases h' with
    | arrived hm' =>
      obtain rfl := Option.some.inj (hm.symm.trans hm')
      exact ⟨rfl, rfl⟩
    | step hs _ _ => exact absurd (hm.symm.trans hs) (Option.some_ne_none _)
  | step hs hup _ ih =>
    cases h' with
    | arrived hm => exact absurd (hm.symm.trans hs) (Option.some_ne_none _)
    | step _ hup' h' =>
      obtain rfl := Option.some.inj (hup.symm.trans hup')
      obtain ⟨rfl, rfl⟩ := ih h'
      exact ⟨rfl, rfl⟩

/-- The subvolumes on a way up are different ones: each is another number of steps away from the
mount. -/
theorem Climbs.exists_chain (h : tree.Climbs n s reached) (hs : s ∈ tree.toList) :
    ∃ chain : List Subvolume, chain.length = n + 1 ∧ chain.Nodup ∧
      ∀ c ∈ chain, c ∈ tree.toList ∧ ∃ k ≤ n, tree.Climbs k c reached := by
  induction h with
  | @arrived s m hm =>
    refine ⟨[s], rfl, List.pairwise_singleton _ s, fun c hc => ?_⟩
    obtain rfl := List.mem_singleton.1 hc
    exact ⟨hs, 0, Nat.le_refl 0, .arrived hm⟩
  | @step n s above reached hnone hup habove ih =>
    obtain ⟨chain, hlength, hnodup, hchain⟩ := ih (mem_toList_of_parentOf? hup)
    have hclimbs : tree.Climbs (n + 1) s reached := .step hnone hup habove
    -- Were it on the way further up, it would be two different numbers of steps below the mount.
    have hnew : s ∉ chain := by
      intro hmem
      obtain ⟨-, k, hk, hclimbs'⟩ := hchain s hmem
      have heq := (hclimbs.unique hclimbs').1
      omega
    refine ⟨s :: chain, by simp [hlength], List.nodup_cons.2 ⟨hnew, hnodup⟩, fun c hc => ?_⟩
    rcases List.mem_cons.1 hc with rfl | hc
    · exact ⟨hs, n + 1, Nat.le_refl _, hclimbs⟩
    · obtain ⟨hmem, k, hk, hclimbs'⟩ := hchain c hc
      exact ⟨hmem, k, by omega, hclimbs'⟩

/-- A way up that meets a mount has fewer steps than the tree has subvolumes. -/
theorem Climbs.lt_size (h : tree.Climbs n s reached) (hs : s ∈ tree.toList) : n < tree.size := by
  obtain ⟨chain, hlength, hnodup, hchain⟩ := h.exists_chain hs
  -- All of the chain are in the tree, each once.
  have hle := (hnodup.subperm fun c hc => (hchain c hc).1).length_le
  rw [hlength, length_toList] at hle
  exact hle

/-- The counted search finds what the way up reaches in as many steps. -/
theorem mountedAncestorWithin_eq_some_iff :
    tree.mountedAncestorWithin steps s = some reached ↔
      ∃ n ≤ steps, tree.Climbs n s reached := by
  induction steps generalizing s with
  | zero =>
    rw [mountedAncestorWithin]
    constructor
    · intro h
      split at h
      · next m hm =>
        obtain rfl := Option.some.inj h
        exact ⟨0, Nat.le_refl 0, .arrived hm⟩
      · contradiction
    · rintro ⟨n, hn, hclimbs⟩
      obtain rfl := Nat.le_zero.1 hn
      cases hclimbs with
      | arrived hm => simp only [hm]
  | succ steps ih =>
    rw [mountedAncestorWithin]
    constructor
    · intro h
      split at h
      · next m hm =>
        obtain rfl := Option.some.inj h
        exact ⟨0, Nat.zero_le _, .arrived hm⟩
      · next hnone =>
        obtain ⟨above, hup, habove⟩ := Option.bind_eq_some_iff.1 h
        obtain ⟨n, hn, hclimbs⟩ := ih.1 habove
        exact ⟨n + 1, by omega, .step hnone hup hclimbs⟩
    · rintro ⟨n, hn, hclimbs⟩
      cases hclimbs with
      | arrived hm => simp only [hm]
      | step hnone hup habove =>
        simp only [hnone]
        exact Option.bind_eq_some_iff.2 ⟨_, hup, ih.2 ⟨_, by omega, habove⟩⟩

/-- Counting the steps cuts no way off that leads to a mount. -/
theorem mountedAncestor?_eq_some_iff :
    tree.mountedAncestor? id = some reached ↔
      ∃ s n, tree.get? id = some s ∧ tree.Climbs n s reached := by
  rw [mountedAncestor?, Option.bind_eq_some_iff]
  constructor
  · rintro ⟨s, hs, hwithin⟩
    obtain ⟨n, -, hclimbs⟩ := mountedAncestorWithin_eq_some_iff.1 hwithin
    exact ⟨s, n, hs, hclimbs⟩
  · rintro ⟨s, n, hs, hclimbs⟩
    -- The way is short enough for the count.
    have hn := hclimbs.lt_size (mem_toList_of_get? hs)
    exact ⟨s, hs, mountedAncestorWithin_eq_some_iff.2 ⟨n, by omega, hclimbs⟩⟩

/-! ## The sequence of parents -/

/-- The subvolume that so many steps up from `s` lead to, if all on the way are known. -/
def ascend (tree : SubvolumeTree) : Nat → Subvolume → Option Subvolume
  | 0, s => some s
  | n + 1, s => (tree.parentOf? s).bind (tree.ascend n)

theorem mem_toList_of_ascend {t : Subvolume} (hs : s ∈ tree.toList)
    (h : tree.ascend n s = some t) : t ∈ tree.toList := by
  induction n generalizing s with
  | zero =>
    obtain rfl := Option.some.inj h
    exact hs
  | succ n ih =>
    obtain ⟨above, hup, habove⟩ := Option.bind_eq_some_iff.1 h
    exact ih (mem_toList_of_parentOf? hup) habove

/-- What the way up reaches is the first of the sequence that is mounted. -/
theorem climbs_iff {t : Subvolume} {m : Mountpoint} :
    tree.Climbs n s (t, m) ↔ tree.ascend n s = some t ∧ t.mountpoints.head? = some m ∧
      ∀ k < n, ∀ u, tree.ascend k s = some u → u.mountpoints = [] := by
  induction n generalizing s with
  | zero =>
    constructor
    · rintro ⟨hm⟩
      exact ⟨rfl, hm, fun k hk => absurd hk (Nat.not_lt_zero k)⟩
    · rintro ⟨hs, hm, -⟩
      obtain rfl := Option.some.inj hs
      exact .arrived hm
  | succ n ih =>
    constructor
    · intro h
      cases h with
      | step hs hup h =>
        obtain ⟨ht, hm, hfirst⟩ := ih.1 h
        refine ⟨Option.bind_eq_some_iff.2 ⟨_, hup, ht⟩, hm, fun k hk u hu => ?_⟩
        cases k with
        | zero =>
          obtain rfl := Option.some.inj hu
          exact List.head?_eq_none_iff.1 hs
        | succ k =>
          rw [ascend, hup] at hu
          exact hfirst k (Nat.lt_of_succ_lt_succ hk) u hu
    · rintro ⟨ht, hm, hfirst⟩
      obtain ⟨above, hup, habove⟩ := Option.bind_eq_some_iff.1 ht
      have hs := List.head?_eq_none_iff.2 (hfirst 0 n.succ_pos s rfl)
      refine .step hs hup (ih.2 ⟨habove, hm, fun k hk u hu => ?_⟩)
      exact hfirst (k + 1) (Nat.succ_lt_succ hk) u (Option.bind_eq_some_iff.2 ⟨above, hup, hu⟩)

/-- If some step up leads to a mounted subvolume, one of them is the first to do so. -/
theorem exists_climbs_of_ascend {t : Subvolume} (h : tree.ascend n s = some t)
    (hmounted : t.mountpoints ≠ []) : ∃ k reached, tree.Climbs k s reached := by
  induction n generalizing s with
  | zero =>
    obtain rfl := Option.some.inj h
    exact ⟨0, _, .arrived (List.head?_eq_some_head hmounted)⟩
  | succ n ih =>
    obtain ⟨above, hup, habove⟩ := Option.bind_eq_some_iff.1 h
    obtain ⟨k, reached, hclimbs⟩ := ih habove
    cases hs : s.mountpoints.head? with
    | none => exact ⟨k + 1, reached, .step hs hup hclimbs⟩
    | some m => exact ⟨0, _, .arrived hs⟩

/-- A way up comes to an end or back to a subvolume that it has passed, either within as many steps
as the tree has subvolumes. -/
theorem ends_or_recurs (hs : s ∈ tree.toList) :
    (∃ n ≤ tree.size, tree.ascend n s = none) ∨
      ∃ i j, i < j ∧ j ≤ tree.size ∧ tree.ascend i s = tree.ascend j s := by
  by_contra hneither
  obtain ⟨hknown, hdistinct⟩ := not_or.1 hneither
  -- Otherwise the steps lead to more different subvolumes than there are.
  have hnodup : ((List.range (tree.size + 1)).map fun n => tree.ascend n s).Nodup := by
    refine List.Nodup.map_on (fun i hi j hj heq => ?_) List.nodup_range
    rw [List.mem_range] at hi hj
    by_contra hne
    rcases Nat.lt_or_gt_of_ne hne with hlt | hlt
    · exact hdistinct ⟨i, j, hlt, by omega, heq⟩
    · exact hdistinct ⟨j, i, hlt, by omega, heq.symm⟩
  have hsubset : ((List.range (tree.size + 1)).map fun n => tree.ascend n s) ⊆
      tree.toList.map some := by
    intro o ho
    obtain ⟨n, hn, rfl⟩ := List.mem_map.1 ho
    cases hup : tree.ascend n s with
    | none => exact absurd ⟨n, by simpa [Nat.lt_succ_iff] using hn, hup⟩ hknown
    | some t => exact List.mem_map_of_mem (mem_toList_of_ascend hs hup)
  have hle := (hnodup.subperm hsubset).length_le
  rw [List.length_map, List.length_range, List.length_map, length_toList] at hle
  exact Nat.not_succ_le_self _ hle

/-- The search for a mounted subvolume finds the first one in the sequence of a subvolume, its
parent, the parent of that, and so on, with its first mount, and none just when the identifier is
unknown or no subvolume of the sequence is mounted. The sequence ends or runs in a circle; more
steps than there are subvolumes would find nothing else. -/
theorem mountedAncestor?_is_first_mounted (tree : SubvolumeTree) (id : Nat) :
    (∀ t m, tree.mountedAncestor? id = some (t, m) ↔
      ∃ s n, tree.get? id = some s ∧ tree.ascend n s = some t ∧ t.mountpoints.head? = some m ∧
        ∀ k < n, ∀ u, tree.ascend k s = some u → u.mountpoints = []) ∧
    (tree.mountedAncestor? id = none ↔ tree.get? id = none ∨
      ∃ s, tree.get? id = some s ∧ ∀ n u, tree.ascend n s = some u → u.mountpoints = []) ∧
    (∀ s, tree.get? id = some s → (∃ n ≤ tree.size, tree.ascend n s = none) ∨
      ∃ i j, i < j ∧ j ≤ tree.size ∧ tree.ascend i s = tree.ascend j s) ∧
    ∀ more, (tree.get? id).bind (tree.mountedAncestorWithin (tree.size + more)) =
      tree.mountedAncestor? id := by
  refine ⟨fun t m => ?_, ?_, fun s hs => ends_or_recurs (mem_toList_of_get? hs), fun more => ?_⟩
  · simp only [mountedAncestor?_eq_some_iff, climbs_iff]
  · constructor
    · intro hnone
      cases hs : tree.get? id with
      | none => exact .inl rfl
      | some s =>
        refine .inr ⟨s, rfl, fun n u hu => ?_⟩
        by_contra hmounted
        obtain ⟨k, reached, hclimbs⟩ := exists_climbs_of_ascend hu hmounted
        have hfound := mountedAncestor?_eq_some_iff.2 ⟨s, k, hs, hclimbs⟩
        exact Option.some_ne_none _ (hfound.symm.trans hnone)
    · rintro (hs | ⟨s, hs, hunmounted⟩)
      · rw [mountedAncestor?, hs, Option.bind_none]
      · rw [Option.eq_none_iff_forall_ne_some]
        rintro ⟨t, m⟩ hfound
        obtain ⟨s', n, hs', hclimbs⟩ := mountedAncestor?_eq_some_iff.1 hfound
        obtain rfl := Option.some.inj (hs.symm.trans hs')
        obtain ⟨ht, hm, -⟩ := climbs_iff.1 hclimbs
        rw [hunmounted n t ht] at hm
        contradiction
  · -- Either search finds just what the way up reaches, which is within the smaller count.
    rw [mountedAncestor?]
    cases hs : tree.get? id with
    | none => rfl
    | some s =>
      refine Option.ext fun reached => ?_
      simp only [Option.bind_some, mountedAncestorWithin_eq_some_iff]
      constructor
      · rintro ⟨n, -, hclimbs⟩
        exact ⟨n, (hclimbs.lt_size (mem_toList_of_get? hs)).le, hclimbs⟩
      · rintro ⟨n, hn, hclimbs⟩
        exact ⟨n, by omega, hclimbs⟩

/-- A way through every subvolume but those of a circle, and the way in the circle. -/
example :
    let listed : List Subvolume :=
      [.ofListed 256 "/a" (some 5), .ofListed 257 "/a/b" (some 256), .ofListed 300 "/x" (some 301),
        .ofListed 301 "/y" (some 300)]
    let tree := (ofSubvolumes listed).attach (.ofMountpoints [⟨⟨"/mnt"⟩, ⟨"/dev/sda"⟩, 5, "/"⟩])
    (tree.mountedAncestor? 257).map (fun reached => reached.1.id) = some 5 ∧
      tree.mountedAncestor? 300 = none := by
  decide

end BtrfsTopology.SubvolumeTree
