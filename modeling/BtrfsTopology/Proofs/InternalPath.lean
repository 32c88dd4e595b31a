import BtrfsTopology.InternalPath
import BtrfsTopology.Proofs.Marker
import Mathlib.Data.List.DropRight
import Mathlib.Data.List.Infix

/-!
# Internal paths by segments

A path in normal form is as good as its segments: it is at or above another just when its segments
begin the other's, and what `relativeChild` leaves of the text of a path below it is the text of the
remaining segments. For paths that are not above one another in this sense the text says nothing.

## Main definitions

* `InternalPath.IsNormal` — a text is in normal form
* `InternalPath.IsAtOrAbove`, `InternalPath.IsAbove` — how two paths lie to each other
* `InternalPath.depth` — how many segments a path has
* `InternalPath.relativeText` — segments without a slash in front

## Main results

* `InternalPath.IsNormal.eq_of_segments` — normal forms with the same segments are the same
* `InternalPath.relativeChild_of_segments` — the rest of a path below another
* `InternalPath.segments_append_slash` — the segments of a path continued by a text
-/

namespace BtrfsTopology.InternalPath

/-- The text is in normal form. -/
def IsNormal (path : String) : Prop :=
  normalize path = path

/-- Every segment of a path begins another, in turn. -/
def IsAtOrAbove (path other : String) : Prop :=
  segments path <+: segments other

/-- A path is above another: the other has further segments. -/
def IsAbove (path other : String) : Prop :=
  IsAtOrAbove path other ∧ segments path ≠ segments other

/-- The number of segments. -/
def depth (path : String) : Nat :=
  (segments path).length

/-- The text of segments with a slash between each two and none in front. -/
def relativeText (segs : List Segment) : String :=
  String.ofList (['/'].intercalate segs)

variable {path other third : String} {segs rest : List Segment}

instance : DecidablePred IsNormal := fun path =>
  inferInstanceAs (Decidable (normalize path = path))

instance : DecidableRel IsAtOrAbove := fun path other =>
  inferInstanceAs (Decidable (segments path <+: segments other))

instance : DecidableRel IsAbove := fun path other =>
  inferInstanceAs (Decidable (IsAtOrAbove path other ∧ segments path ≠ segments other))

/-! ## Normal forms -/

theorem isNormal_normalize (raw : String) : IsNormal (normalize raw) :=
  normalize_normalize raw

theorem isNormal_root : IsNormal "/" := rfl

@[simp] theorem segments_root : segments "/" = [] := rfl

theorem IsNormal.ofSegments_segments (h : IsNormal path) : ofSegments (segments path) = path :=
  h

/-- Normal forms with the same segments are the same. -/
theorem IsNormal.eq_of_segments (h : IsNormal path) (hother : IsNormal other)
    (heq : segments path = segments other) : path = other := by
  rw [← h.ofSegments_segments, ← hother.ofSegments_segments, heq]

theorem IsNormal.eq_root (h : IsNormal path) (heq : segments path = []) : path = "/" :=
  h.eq_of_segments isNormal_root heq

/-- A path and its normal form name the same place. -/
theorem isAbove_normalize_iff : IsAbove path (normalize other) ↔ IsAbove path other := by
  simp [IsAbove, IsAtOrAbove]

theorem mem_dropMarker_iff {c : Char} (hc : c ∉ marker) {text : List Char} :
    c ∈ dropMarker text ↔ c ∈ text := by
  rw [dropMarker]
  cases hdrop : marker.isPrefixOf? text with
  | none => rfl
  | some rest => simp [← List.isPrefixOf?_eq_some_iff_append_eq.1 hdrop, hc]

theorem mem_ofSegments_iff {c : Char} (hslash : c ≠ '/') :
    c ∈ (ofSegments segs).toList ↔ ∃ segment ∈ segs, c ∈ segment := by
  cases segs with
  | nil => simp [ofSegments, hslash]
  | cons segment rest => simp [ofSegments, hslash]

/-- A normal form has the characters of its text that belong neither to the marker nor between
segments. -/
theorem mem_normalize_iff {c : Char} (hslash : c ≠ '/') (hmarker : c ∉ marker) {raw : String} :
    c ∈ (normalize raw).toList ↔ c ∈ raw.toList := by
  have hjoined : ['/'].intercalate ((dropMarker raw.toList).splitOn '/') = dropMarker raw.toList :=
    List.intercalate_splitOn '/'
  rw [normalize, mem_ofSegments_iff hslash, segments, ← mem_dropMarker_iff hmarker, ← hjoined,
    Text.mem_intercalate_iff hslash, hjoined]
  simp only [List.mem_filter]
  constructor
  · rintro ⟨segment, ⟨hsegment, -⟩, hc⟩
    exact ⟨segment, hsegment, hc⟩
  · rintro ⟨segment, hsegment, hc⟩
    exact ⟨segment, ⟨hsegment, by simp [List.ne_nil_of_mem hc]⟩, hc⟩

/-! ## Paths above one another -/

theorem isAtOrAbove_refl (path : String) : IsAtOrAbove path path :=
  List.prefix_rfl

theorem IsAtOrAbove.trans (h : IsAtOrAbove path other) (h' : IsAtOrAbove other third) :
    IsAtOrAbove path third :=
  List.IsPrefix.trans h h'

theorem IsAtOrAbove.depth_le (h : IsAtOrAbove path other) : depth path ≤ depth other :=
  List.IsPrefix.length_le h

/-- Of two paths at or above a third, the one with fewer segments is at or above the other. -/
theorem IsAtOrAbove.of_depth_le (h : IsAtOrAbove path third) (h' : IsAtOrAbove other third)
    (hle : depth path ≤ depth other) : IsAtOrAbove path other :=
  List.prefix_of_prefix_length_le h h' hle

theorem IsAtOrAbove.segments_eq (h : IsAtOrAbove path other) (hle : depth other ≤ depth path) :
    segments path = segments other :=
  List.IsPrefix.eq_of_length h (Nat.le_antisymm h.depth_le hle)

theorem IsAbove.isAtOrAbove (h : IsAbove path other) : IsAtOrAbove path other :=
  h.1

theorem IsAbove.depth_lt (h : IsAbove path other) : depth path < depth other := by
  by_contra hle
  exact h.2 (h.1.segments_eq (Nat.le_of_not_lt hle))

theorem IsAtOrAbove.trans_isAbove (h : IsAtOrAbove path other) (h' : IsAbove other third) :
    IsAbove path third := by
  refine ⟨h.trans h'.1, fun heq => ?_⟩
  have hle := h.depth_le
  have hlt := h'.depth_lt
  have hdepth : depth path = depth third := congrArg List.length heq
  omega

theorem not_isAbove_root (path : String) : ¬ IsAbove path "/" := by
  intro h
  exact Nat.not_lt_zero _ h.depth_lt

/-- The segments of a path below another are those of the other and some more. -/
theorem IsAbove.exists_rest (h : IsAbove path other) :
    ∃ rest, rest ≠ [] ∧ segments other = segments path ++ rest := by
  obtain ⟨⟨rest, hrest⟩, hne⟩ := h
  refine ⟨rest, ?_, hrest.symm⟩
  rintro rfl
  exact hne (by simpa using hrest)

/-! ## Texts of segments -/

theorem toList_ofSegments (h : segs ≠ []) :
    (ofSegments segs).toList = segs.flatMap ('/' :: ·) := by
  cases segs with
  | nil => exact absurd rfl h
  | cons segment rest => exact String.toList_ofList

/-- Without slashes in front, the slashed segments are the joined ones. -/
theorem dropWhile_slashed (h : ∀ segment ∈ segs, IsSegment segment) :
    (segs.flatMap ('/' :: ·)).dropWhile (· == '/') = ['/'].intercalate segs := by
  cases segs with
  | nil => rfl
  | cons segment rest =>
    obtain ⟨hne, hslash⟩ := h segment List.mem_cons_self
    rw [intercalate_segments]
    cases segment with
    | nil => exact absurd rfl hne
    | cons c segment =>
      have hc : c ≠ '/' := fun hc => hslash (hc ▸ List.mem_cons_self)
      simp [hc]

/-- What is left of a path below another are the segments that it has more. -/
theorem relativeChild_of_segments (hpath : IsNormal path) (hother : IsNormal other)
    (h : segments other = segments path ++ rest) :
    relativeChild path other = .ok (relativeText rest) := by
  have hrest : ∀ segment ∈ rest, IsSegment segment := fun segment hsegment =>
    isSegment_of_mem_segments (h ▸ List.mem_append_right _ hsegment)
  -- The slash of the root is one in front of the first segment below it, so that the root is no
  -- beginning in the way other paths are.
  obtain ⟨left, hleft, hdrop⟩ : ∃ left, path.toList.isPrefixOf? other.toList = some left ∧
      left.dropWhile (· == '/') = ['/'].intercalate rest := by
    by_cases hnil : segments path = []
    · obtain rfl := hpath.eq_root hnil
      rw [hnil, List.nil_append] at h
      cases rest with
      | nil =>
        obtain rfl := hother.eq_root h
        exact ⟨[], rfl, rfl⟩
      | cons segment rest =>
        refine ⟨['/'].intercalate (segment :: rest), ?_, ?_⟩
        · rw [← hother.ofSegments_segments, h, toList_ofSegments (List.cons_ne_nil _ _),
            intercalate_segments]
          rfl
        · rw [← dropWhile_slashed hrest, List.dropWhile_idempotent]
    · refine ⟨rest.flatMap ('/' :: ·), ?_, dropWhile_slashed hrest⟩
      have hother' : segments other ≠ [] := by
        rw [h]
        exact List.append_ne_nil_of_left_ne_nil hnil rest
      rw [List.isPrefixOf?_eq_some_iff_append_eq, ← hother.ofSegments_segments,
        toList_ofSegments hother', h, List.flatMap_append, ← toList_ofSegments hnil,
        hpath.ofSegments_segments]
  simp only [relativeChild, hleft, hdrop, relativeText]

/-! ## Continuing a path -/

/-- The segments of a text, whatever it begins with. -/
def innerSegments (text : String) : List Segment :=
  (text.toList.splitOn '/').filter fun part => !part.isEmpty

/-- The segments of joined texts are those of the texts that are not empty. -/
theorem innerSegments_intercalate {texts : List (List Char)} (h : ∀ text ∈ texts, '/' ∉ text) :
    innerSegments (String.ofList (['/'].intercalate texts)) =
      texts.filter fun text => !text.isEmpty := by
  rw [innerSegments, String.toList_ofList]
  cases texts with
  | nil => rfl
  | cons text rest => rw [List.splitOn_intercalate '/' h (List.cons_ne_nil text rest)]

theorem innerSegments_relativeText (h : ∀ segment ∈ segs, IsSegment segment) :
    innerSegments (relativeText segs) = segs := by
  rw [relativeText, innerSegments_intercalate fun segment hsegment => (h segment hsegment).2]
  exact List.filter_eq_self.2 fun segment hsegment => by simpa using (h segment hsegment).1

theorem toList_relativeText_ne_nil (h : ∀ segment ∈ segs, IsSegment segment) (hne : segs ≠ []) :
    (relativeText segs).toList ≠ [] := by
  intro hnil
  have hsegs := innerSegments_relativeText h
  rw [innerSegments, hnil] at hsegs
  exact hne hsegs.symm

theorem IsNormal.exists_slash (h : IsNormal path) : ∃ rest, path.toList = '/' :: rest := by
  rw [← h.ofSegments_segments]
  cases segments path with
  | nil => exact ⟨[], rfl⟩
  | cons segment rest =>
    exact ⟨segment ++ rest.flatMap ('/' :: ·), by simp [toList_ofSegments]⟩

/-- The marker has no slash, so that it is in front of a path or not in front of its continuation. -/
theorem dropMarker_append_slash (path text : List Char) :
    dropMarker (path ++ '/' :: text) = dropMarker path ++ '/' :: text := by
  rw [dropMarker, dropMarker, Text.isPrefixOf?_append_cons (by decide)]
  cases marker.isPrefixOf? path <;> rfl

/-- A text that continues a path adds its segments to those of the path. -/
theorem segments_append_slash (path text : String) :
    segments (path ++ "/" ++ text) = segments path ++ innerSegments text := by
  have htext : (path ++ "/" ++ text).toList = path.toList ++ '/' :: text.toList := by simp
  rw [segments, segments, innerSegments, htext, dropMarker_append_slash,
    List.splitOn_append_cons_self, List.filter_append]

end BtrfsTopology.InternalPath
