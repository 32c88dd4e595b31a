import BtrfsTopology.Proofs.Consistency
import BtrfsTopology.SubvolumeTree.Resolution

/-!
# The nearest subvolume

The search for the nearest subvolume tries a path and then every path above it. As paths are in
normal form, one of them is found just when a subvolume's segments begin those of the path, and the
first found has the most segments. Read as texts, the paths that are tried come about by cutting off
the last slash and what follows it.

## Main definitions

* `SubvolumeTree.IsDeepest` — of the subvolumes with a property, none has more segments
* `InternalPath.above?` — a text without its last slash and what follows it
* `SubvolumeTree.SearchEnds` — the search that shortens a text comes to an end

## Main results

* `SubvolumeTree.isDeepest_nearest` — the nearest subvolume is the deepest at or above the path
* `SubvolumeTree.nearest_congr` — only the segments of the path count
* `SubvolumeTree.searchEnds_iff` — the search on texts ends with the nearest subvolume
* `SubvolumeTree.IsKeyed.least_of_findPath?` — which of several subvolumes at a path is found
-/

namespace BtrfsTopology

namespace SubvolumeTree

open InternalPath

/-- The subvolume is in the tree and has a property, and none that has it lies deeper. -/
structure IsDeepest (tree : SubvolumeTree) (p : Subvolume → Prop) (s : Subvolume) : Prop where
  mem : s ∈ tree.toList
  holds : p s
  deepest : ∀ other ∈ tree.toList, p other → depth other.path ≤ depth s.path

variable {tree : SubvolumeTree} {path path' : String}

instance (p : Subvolume → Prop) [DecidablePred p] : DecidablePred (tree.IsDeepest p) := fun s =>
  decidable_of_iff
    (s ∈ tree.toList ∧ p s ∧ ∀ other ∈ tree.toList, p other → depth other.path ≤ depth s.path)
    ⟨fun ⟨mem, holds, deepest⟩ => ⟨mem, holds, deepest⟩,
      fun h => ⟨h.mem, h.holds, h.deepest⟩⟩

theorem IsDeepest.congr {p q : Subvolume → Prop} {s : Subvolume} (h : tree.IsDeepest p s)
    (hpq : ∀ s ∈ tree.toList, p s ↔ q s) : tree.IsDeepest q s where
  mem := h.mem
  holds := (hpq s h.mem).1 h.holds
  deepest := fun other hother hq => h.deepest other hother ((hpq other hother).2 hq)

/-- A tree finds its top-level subvolume under the root path. -/
theorem IsKeyed.findPath?_root (h : tree.IsKeyed) : tree.findPath? "/" = some tree.root := by
  simp [findPath?, toList, h.root_path]

/-- A path that is tried without success is that of no subvolume. -/
theorem path_ne_of_findPath? (h : tree.findPath? path = none) {s : Subvolume}
    (hs : s ∈ tree.toList) : s.path ≠ path := by
  simpa using List.find?_eq_none.1 h s hs

/-- Trying the paths above one another finds the deepest subvolume. The induction is on the segments
from the last to the first, as they are given up one after the other. -/
private theorem exists_findSome?_ancestors (hkeyed : tree.IsKeyed) (hnormal : tree.HasNormalPaths)
    {reversed : List Segment} (hsegments : ∀ segment ∈ reversed, IsSegment segment) :
    ∃ s, (ancestorsOfReversed reversed).findSome? tree.findPath? = some s ∧
      tree.IsDeepest (fun s => segments s.path <+: reversed.reverse) s := by
  induction reversed with
  | nil =>
    have hroot : segments tree.root.path = [] := by rw [hkeyed.root_path, segments_root]
    refine ⟨tree.root, by simp [ancestorsOfReversed, ofSegments, hkeyed.findPath?_root], ?_⟩
    refine ⟨tree.root_mem_toList, by simp [hroot], fun other _ hother => ?_⟩
    rw [depth, List.prefix_nil.1 hother]
    exact Nat.zero_le _
  | cons segment above ih =>
    have hwhole : segments (ofSegments (segment :: above).reverse) = (segment :: above).reverse :=
      segments_ofSegments fun other hother => hsegments other (List.mem_reverse.1 hother)
    rw [ancestorsOfReversed, List.findSome?_cons]
    cases hfind : tree.findPath? (ofSegments (segment :: above).reverse) with
    | some s =>
      have hpath : segments s.path = (segment :: above).reverse := by
        rw [path_of_findPath? hfind, hwhole]
      refine ⟨s, rfl, mem_toList_of_findPath? hfind, hpath ▸ List.prefix_rfl, ?_⟩
      intro other _ hother
      rw [depth, depth, hpath]
      exact hother.length_le
    | none =>
      obtain ⟨s, hs, hdeepest⟩ := ih fun other hother =>
        hsegments other (List.mem_cons_of_mem segment hother)
      rw [List.reverse_cons] at hwhole hfind ⊢
      refine ⟨s, hs, hdeepest.mem, hdeepest.holds.trans (List.prefix_append _ _), ?_⟩
      intro other hmem hother
      -- A subvolume at the whole path would have been found.
      rcases List.prefix_concat_iff.1 hother with heq | hprefix
      · have hpath : other.path = ofSegments (above.reverse ++ [segment]) := by
          rw [← (hnormal other hmem).ofSegments_segments, heq]
        exact absurd hpath (path_ne_of_findPath? hfind hmem)
      · exact hdeepest.deepest other hmem hprefix

/-- The nearest subvolume is the deepest one at or above the path. -/
theorem isDeepest_nearest (hkeyed : tree.IsKeyed) (hnormal : tree.HasNormalPaths) (path : String) :
    tree.IsDeepest (fun s => IsAtOrAbove s.path path) (tree.nearest path) := by
  have hsegments : ∀ segment ∈ (segments path).reverse, IsSegment segment := fun segment hsegment =>
    isSegment_of_mem_segments (List.mem_reverse.1 hsegment)
  obtain ⟨s, hs, hdeepest⟩ := exists_findSome?_ancestors hkeyed hnormal hsegments
  rw [List.reverse_reverse] at hdeepest
  rw [nearest, withAncestors, hs]
  exact hdeepest

/-- Paths with the same segments have the same nearest subvolume. -/
theorem nearest_congr (h : segments path = segments path') :
    tree.nearest path = tree.nearest path' := by
  rw [nearest, nearest, withAncestors, withAncestors, h]

end SubvolumeTree

/-! ## The search on texts -/

/-- A text without its last slash and what follows it. If that slash is the first character the root
is left, and of the root itself nothing. -/
def InternalPath.above? (path : String) : Option String :=
  match Text.cutLast? ['/'] path.toList with
  | none => none
  | some ([], []) => none
  | some ([], _ :: _) => some "/"
  | some (above, _) => some (String.ofList above)

theorem InternalPath.above?_root : above? "/" = none := rfl

/-- Above a path in normal form is the one with all segments but the last. -/
theorem InternalPath.above?_ofSegments_concat {segs : List Segment} {segment : Segment}
    (hsegment : IsSegment segment) :
    above? (ofSegments (segs ++ [segment])) = some (ofSegments segs) := by
  have htext : (ofSegments (segs ++ [segment])).toList =
      segs.flatMap ('/' :: ·) ++ ['/'] ++ segment := by
    simp [toList_ofSegments]
  have hcut : Text.cutLast? ['/'] (ofSegments (segs ++ [segment])).toList =
      some (segs.flatMap ('/' :: ·), segment) := by
    rw [htext]
    refine Text.cutLast?_append (Text.cutLast?_eq_none_iff.2 fun hinfix => hsegment.2 ?_) _
    exact hinfix.subset List.mem_cons_self
  rw [above?, hcut]
  cases segs with
  | nil =>
    cases segment with
    | nil => exact absurd rfl hsegment.1
    | cons c rest => rfl
  | cons first rest => rfl

namespace SubvolumeTree

open InternalPath

variable {tree : SubvolumeTree} {path path' : String} {s s' : Subvolume}

/-- The search that begins with a text ends with a subvolume: the one at the text, or the one with
which the search ends that begins with the text above, or, where nothing is above, the top-level
subvolume. -/
inductive SearchEnds (tree : SubvolumeTree) : String → Subvolume → Prop where
  | found {path : String} {s : Subvolume} (h : tree.findPath? path = some s) :
      SearchEnds tree path s
  | shortened {path above : String} {s : Subvolume} (h : tree.findPath? path = none)
      (hup : above? path = some above) (hs : SearchEnds tree above s) : SearchEnds tree path s
  | exhausted {path : String} (h : tree.findPath? path = none) (hup : above? path = none) :
      SearchEnds tree path tree.root

/-- The search ends in one way. -/
theorem SearchEnds.unique (h : tree.SearchEnds path s) (h' : tree.SearchEnds path s') : s = s' := by
  induction h with
  | found hs =>
    cases h' with
    | found hs' => exact Option.some.inj (hs.symm.trans hs')
    | shortened hnone _ _ => exact absurd (hs.symm.trans hnone) (Option.some_ne_none _)
    | exhausted hnone _ => exact absurd (hs.symm.trans hnone) (Option.some_ne_none _)
  | shortened hnone hup _ ih =>
    cases h' with
    | found hs' => exact absurd (hs'.symm.trans hnone) (Option.some_ne_none _)
    | shortened _ hup' h' =>
      obtain rfl := Option.some.inj (hup.symm.trans hup')
      exact ih h'
    | exhausted _ hup' => exact absurd (hup.symm.trans hup') (Option.some_ne_none _)
  | exhausted hnone hup =>
    cases h' with
    | found hs' => exact absurd (hs'.symm.trans hnone) (Option.some_ne_none _)
    | shortened _ hup' _ => exact absurd (hup'.symm.trans hup) (Option.some_ne_none _)
    | exhausted _ _ => rfl

/-- The texts of the search are those of the paths above one another. The induction is on the
segments from the last to the first. -/
theorem searchEnds_ancestors {reversed : List Segment}
    (hsegments : ∀ segment ∈ reversed, IsSegment segment) :
    tree.SearchEnds (ofSegments reversed.reverse)
      (((ancestorsOfReversed reversed).findSome? tree.findPath?).getD tree.root) := by
  induction reversed with
  | nil =>
    rw [ancestorsOfReversed, List.findSome?_singleton, List.reverse_nil]
    cases hfind : tree.findPath? (ofSegments []) with
    | some s => exact .found hfind
    | none => exact .exhausted hfind above?_root
  | cons segment above ih =>
    rw [ancestorsOfReversed, List.findSome?_cons]
    cases hfind : tree.findPath? (ofSegments (segment :: above).reverse) with
    | some s => exact .found hfind
    | none =>
      refine .shortened hfind ?_ (ih fun other hother =>
        hsegments other (List.mem_cons_of_mem segment hother))
      rw [List.reverse_cons]
      exact above?_ofSegments_concat (hsegments segment List.mem_cons_self)

/-- The search that begins with the normal form of a path ends, and with the nearest subvolume. -/
theorem searchEnds_iff : tree.SearchEnds (normalize path) s ↔ s = tree.nearest path := by
  have hnearest : tree.SearchEnds (normalize path) (tree.nearest path) := by
    have hsegments : ∀ segment ∈ (segments path).reverse, IsSegment segment :=
      fun segment hsegment => isSegment_of_mem_segments (List.mem_reverse.1 hsegment)
    have h := tree.searchEnds_ancestors hsegments
    rwa [List.reverse_reverse] at h
  exact ⟨fun h => h.unique hnearest, fun h => h ▸ hnearest⟩

/-- What the search ends with is found under its own path. -/
theorem SearchEnds.findPath?_path (hkeyed : tree.IsKeyed) (h : tree.SearchEnds path s) :
    tree.findPath? s.path = some s := by
  induction h with
  | found hs => rwa [path_of_findPath? hs]
  | shortened _ _ _ ih => exact ih
  | exhausted _ _ => rw [hkeyed.root_path, hkeyed.findPath?_root]

/-- Of the subvolumes at a path the top-level one is found, or else the one with the least
identifier. -/
theorem IsKeyed.least_of_findPath? (h : tree.IsKeyed) (hfind : tree.findPath? path = some s) :
    s = tree.root ∨ tree.root.path ≠ path ∧
      ∀ other ∈ tree.toList, other.path = path → s.id ≤ other.id := by
  rw [findPath?, toList, List.find?_cons] at hfind
  split at hfind
  · exact .inl (Option.some.inj hfind).symm
  · next hroot =>
    have hroot : tree.root.path ≠ path := by simpa using hroot
    refine .inr ⟨hroot, fun other hother hpath => ?_⟩
    obtain ⟨-, before, after, hvalues, hbefore⟩ := List.find?_eq_some_iff_append.1 hfind
    rw [toList, hvalues, List.mem_cons, List.mem_append, List.mem_cons] at hother
    rcases hother with rfl | hother | rfl | hother
    · exact absurd hpath hroot
    · -- Those before it are at other paths.
      simpa [hpath] using hbefore other hother
    · exact Nat.le_refl _
    · have hascending := h.ids_ascending
      rw [hvalues, List.map_append, List.map_cons] at hascending
      have hlater := (List.pairwise_cons.1 (List.pairwise_append.1 hascending).2.1).1
      exact Nat.le_of_lt (hlater other.id (List.mem_map_of_mem hother))

/-- The nearest subvolume is at the path itself just when there is one. -/
theorem IsKeyed.path_nearest_eq_iff (h : tree.IsKeyed) :
    (tree.nearest path).path = normalize path ↔ (tree.atPath? path).isSome := by
  rw [atPath?, Option.isSome_iff_exists]
  constructor
  · intro hpath
    refine ⟨tree.nearest path, ?_⟩
    rw [← hpath]
    exact (searchEnds_iff.2 rfl).findPath?_path h
  · rintro ⟨s, hs⟩
    rw [← searchEnds_iff.1 (.found hs), path_of_findPath? hs]

end SubvolumeTree

/-! ## The longest match -/

open InternalPath SubvolumeTree

/-- The path of a subvolume is at or above another path when it is the normal form of that path or
above it. -/
theorem SubvolumeTree.HasNormalPaths.isAtOrAbove_iff {tree : SubvolumeTree}
    (h : tree.HasNormalPaths) {s : Subvolume} (hs : s ∈ tree.toList) {path : String} :
    IsAtOrAbove s.path path ↔ s.path = normalize path ∨ IsAbove s.path path := by
  constructor
  · intro habove
    by_cases heq : segments s.path = segments path
    · exact .inl ((h s hs).eq_of_segments (isNormal_normalize path) (by simp [heq]))
    · exact .inr ⟨habove, heq⟩
  · rintro (hpath | habove)
    · rw [hpath, IsAtOrAbove, segments_normalize]
    · exact habove.isAtOrAbove

/-- In every state a filesystem can be in, the search for the nearest subvolume comes to an end,
with a subvolume of the tree. This is at the normal form of the path or above it, no other one that
is has a longer path, and of those with the same path it is the top-level one or the one with the
least identifier. It is at the normal form just when there is a subvolume there, and it is the same
for all paths with the same normal form. -/
theorem Filesystem.nearest_is_longest_match {fs : Filesystem} (h : fs.Reachable) (path : String) :
    let tree := fs.subvolumes
    let nearest := tree.nearest path
    (∀ s, tree.SearchEnds (normalize path) s ↔ s = nearest) ∧
    nearest ∈ tree.toList ∧
    (nearest.path = normalize path ∨ IsAbove nearest.path path) ∧
    (∀ s ∈ tree.toList, s.path = normalize path ∨ IsAbove s.path path →
      depth s.path ≤ depth nearest.path) ∧
    (nearest = tree.root ∨ tree.root.path ≠ nearest.path ∧
      ∀ s ∈ tree.toList, s.path = nearest.path → nearest.id ≤ s.id) ∧
    (nearest.path = normalize path ↔ (tree.atPath? path).isSome) ∧
    ∀ path', normalize path' = normalize path → tree.nearest path' = nearest := by
  intro tree nearest
  have hkeyed := h.consistent.tree_keyed
  have hnormal := h.consistent.normal_paths
  obtain ⟨hmem, habove, hdeepest⟩ := isDeepest_nearest hkeyed hnormal path
  refine ⟨fun s => searchEnds_iff, hmem, (hnormal.isAtOrAbove_iff hmem).1 habove, ?_, ?_,
    hkeyed.path_nearest_eq_iff, fun path' hpath' => nearest_congr ?_⟩
  · exact fun s hs hpath => hdeepest s hs ((hnormal.isAtOrAbove_iff hs).2 hpath)
  · exact hkeyed.least_of_findPath? ((searchEnds_iff.2 rfl).findPath?_path hkeyed)
  · rw [← segments_normalize path', hpath', segments_normalize]

/-- A tree with gaps, with two subvolumes at one path and with one whose name goes on where that of
another ends. -/
theorem Filesystem.nearest_is_longest_match_with_gaps :
    let listing : List Subvolume :=
      [.ofListed 301 "/a/b" (some 5), .ofListed 300 "a//b" (some 5),
        .ofListed 310 "/a/b/c/d" (some 300), .ofListed 3 "/" (some 5), .ofListed 320 "/a/bc" none]
    let fs := (Filesystem.new "1111" none []).updateSubvolumes listing
    let tree := fs.subvolumes
    fs.Reachable ∧ (tree.nearest "<FS_TREE>a//b/c/").id = 300 ∧
      tree.SearchEnds "/a/b/c" (tree.nearest "/a/b/c") ∧ (tree.nearest "/ab").id = 5 ∧
      (∀ s ∈ tree.toList, s.path = "/a/b/c" ∨ IsAbove s.path "/a/b/c" → depth s.path ≤ 2) ∧
      (tree.atPath? "/a/b/c").isSome = false := by
  intro listing fs tree
  have hnormal : ∀ s ∈ listing, IsNormal s.path := by decide
  have hfs : fs.Reachable := ⟨_, .new _ _ _, .single (step_updateSubvolumes _ hnormal)⟩
  have hpath : normalize "/a/b/c" = "/a/b/c" := by decide
  have hdepth : depth (tree.nearest "/a/b/c").path = 2 := by decide
  obtain ⟨hends, -, -, hdeepest, -, hat, -⟩ := nearest_is_longest_match hfs "/a/b/c"
  rw [hpath] at hends hdeepest
  refine ⟨hfs, by decide, (hends _).2 rfl, by decide, fun s hs habove => ?_, ?_⟩
  · exact (hdeepest s hs habove).trans_eq hdepth
  · rw [← Bool.not_eq_true, ← hat]
    decide

end BtrfsTopology
