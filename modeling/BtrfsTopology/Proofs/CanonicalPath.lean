import BtrfsTopology.Proofs.InternalPath

/-!
# Normal forms are canonical

A text names a sequence of segments: slashes separate them, however many there are and wherever they
stand, and one marker in front does not count. The normal form writes this sequence in the one way
that has a slash in front of each segment and no other slash. Such a text begins with a slash, so no
marker can come to stand in front of it, and a normal form is its own.

## Main definitions

* `InternalPath.IsCanonical` — a text is `/`, or its segments with a slash in front of each
* `InternalPath.ConsistsOf` — which segments stand between the slashes of a text
* `InternalPath.WithoutMarker` — what is left of a text when at most one marker in front is removed
* `InternalPath.Names` — which segments a text names

## Main results

* `InternalPath.consistsOf_iff`, `InternalPath.names_iff` — every text has just one such sequence
* `InternalPath.isCanonical_iff` — the canonical texts are those that normalising leaves alone
* `InternalPath.normalize_eq_iff` — a normal form tells which segments are named, and nothing else
* `InternalPath.dropMarker_append_marker` — a marker that is not at the very start is kept
-/

namespace BtrfsTopology.InternalPath

/-- The text is `/`, or segments with a slash in front of each. -/
def IsCanonical (path : String) : Prop :=
  path = "/" ∨ ∃ segs : List Segment, segs ≠ [] ∧ (∀ segment ∈ segs, IsSegment segment) ∧
    path.toList = segs.flatMap ('/' :: ·)

/-- The text consists of the segments with slashes in between, and of any slashes at either end. -/
inductive ConsistsOf : List Char → List Segment → Prop where
  | nil : ConsistsOf [] []
  | slash {text : List Char} {segs : List Segment} (hrest : ConsistsOf text segs) :
      ConsistsOf ('/' :: text) segs
  | segment {segment : Segment} {text : List Char} {segs : List Segment}
      (hsegment : IsSegment segment) (hbehind : ∀ c ∈ text.head?, c = '/')
      (hrest : ConsistsOf text segs) : ConsistsOf (segment ++ text) (segment :: segs)

/-- What is left of a text when one marker in front is removed, if there is any. -/
def WithoutMarker (raw text : List Char) : Prop :=
  raw = marker ++ text ∨ ¬ marker <+: raw ∧ raw = text

/-- The text consists of the segments when at most one marker in front of it is removed. -/
def Names (raw : String) (segs : List Segment) : Prop :=
  ∃ text, WithoutMarker raw.toList text ∧ ConsistsOf text segs

variable {raw path other : String} {text : List Char} {segs : List Segment}

/-! ## Segments of a text -/

theorem consistsOf_intercalate {parts : List (List Char)} (h : ∀ part ∈ parts, '/' ∉ part) :
    ConsistsOf (['/'].intercalate parts) (parts.filter fun part => !part.isEmpty) := by
  induction parts with
  | nil => exact .nil
  | cons part parts ih =>
    have hpart := h part List.mem_cons_self
    have hrest := ih fun other hother => h other (List.mem_cons_of_mem part hother)
    -- Behind the part there is nothing or a slash, and it is a segment unless it is empty.
    obtain ⟨behind, hjoin, hbehind, hconsists⟩ : ∃ behind,
        ['/'].intercalate (part :: parts) = part ++ behind ∧ (∀ c ∈ behind.head?, c = '/') ∧
        ConsistsOf behind (parts.filter fun part => !part.isEmpty) := by
      cases parts with
      | nil => exact ⟨[], by simp, by simp, .nil⟩
      | cons next parts =>
        exact ⟨'/' :: ['/'].intercalate (next :: parts), by simp, by simp, .slash hrest⟩
    rw [hjoin]
    cases part with
    | nil => simpa using hconsists
    | cons c part => exact .segment ⟨List.cons_ne_nil c part, hpart⟩ hbehind hconsists

/-- The segments of a text are its parts between slashes that are not empty. -/
theorem consistsOf_iff :
    ConsistsOf text segs ↔
      (text.splitOn '/').filter (fun part => !part.isEmpty) = segs := by
  constructor
  · intro h
    induction h with
    | nil => rfl
    | slash _ ih => simpa [Text.splitOn_cons_self] using ih
    | @segment segment text segs hsegment hbehind _ ih =>
      have hself : segment.splitOn '/' = [segment] := List.splitOn_eq_singleton hsegment.2
      cases text with
      | nil =>
        obtain rfl : [] = segs := ih
        simpa [hself] using hsegment.1
      | cons c text =>
        obtain rfl : c = '/' := hbehind c rfl
        rw [Text.splitOn_cons_self] at ih
        rw [List.splitOn_append_cons_self, hself]
        simpa [hsegment.1] using ih
  · rintro rfl
    have hparts : ∀ part ∈ text.splitOn '/', '/' ∉ part := fun part hpart =>
      Text.not_mem_of_mem_splitOn hpart
    have h := consistsOf_intercalate hparts
    rwa [List.intercalate_splitOn] at h

theorem existsUnique_consistsOf (text : List Char) : ∃! segs, ConsistsOf text segs :=
  ⟨_, consistsOf_iff.2 rfl, fun _ h => (consistsOf_iff.1 h).symm⟩

/-! ## Markers -/

theorem withoutMarker_iff {raw : List Char} : WithoutMarker raw text ↔ dropMarker raw = text := by
  rw [WithoutMarker, dropMarker]
  cases hdrop : marker.isPrefixOf? raw with
  | none =>
    have hmarker := Text.isPrefixOf?_eq_none_iff.1 hdrop
    have hne : raw ≠ marker ++ text := fun h => hmarker ⟨text, h.symm⟩
    simp [hmarker, hne]
  | some rest =>
    obtain rfl := List.isPrefixOf?_eq_some_iff_append_eq.1 hdrop
    simp

theorem names_iff : Names raw segs ↔ segments raw = segs := by
  simp only [Names, withoutMarker_iff, consistsOf_iff, exists_eq_left', segments]

theorem names_segments (raw : String) : Names raw (segments raw) :=
  names_iff.2 rfl

/-- The character that the marker begins with does not occur in it again. -/
theorem not_mem_tail_marker : '<' ∉ marker.tail := by decide

/-- A marker that is not at the very start stays where it is, also behind one that is removed. -/
theorem dropMarker_append_marker {front : List Char} (hfront : front ≠ []) (behind : List Char) :
    dropMarker (front ++ marker ++ behind) = dropMarker front ++ marker ++ behind := by
  rw [dropMarker, dropMarker]
  cases hdrop : marker.isPrefixOf? front with
  | some rest =>
    obtain rfl := List.isPrefixOf?_eq_some_iff_append_eq.1 hdrop
    simp [List.append_assoc]
  | none =>
    have hmarker := Text.isPrefixOf?_eq_none_iff.1 hdrop
    suffices hnot : ¬ marker <+: front ++ marker ++ behind by
      rw [Text.isPrefixOf?_eq_none_iff.2 hnot]
      rfl
    rintro ⟨rest, hrest⟩
    rw [List.append_assoc] at hrest
    rcases List.append_eq_append_iff.1 hrest with ⟨gap, hgap, -⟩ | ⟨tail, htail, hbehind⟩
    · exact hmarker ⟨gap, hgap.symm⟩
    · cases tail with
      | nil => exact hmarker ⟨[], by simpa using htail⟩
      | cons c tail =>
        -- A marker would begin inside of one.
        obtain rfl : '<' = c := congrArg List.head? hbehind |> Option.some.inj
        obtain ⟨d, front, rfl⟩ := List.exists_cons_of_ne_nil hfront
        refine not_mem_tail_marker ?_
        rw [htail]
        simp

/-- A text without slashes that occurs in another one occurs in one of its parts. -/
theorem exists_mem_splitOn_of_infix {word : List Char} (hword : '/' ∉ word)
    (h : word <:+: text) : ∃ part ∈ text.splitOn '/', word <:+: part := by
  obtain ⟨front, behind, rfl⟩ := h
  induction front with
  | nil =>
    -- The word goes on to the first slash behind it.
    obtain ⟨part, parts, hparts⟩ :=
      List.exists_cons_of_ne_nil (List.splitOn_ne_nil '/' behind)
    refine ⟨word ++ part, ?_, (List.prefix_append word part).isInfix⟩
    have hsplit : (word ++ behind).splitOn '/' = (word ++ part) :: parts := by
      induction word with
      | nil => exact hparts
      | cons c word ih =>
        obtain ⟨hc, hword⟩ : '/' ≠ c ∧ '/' ∉ word := by simpa using hword
        rw [List.cons_append, List.splitOn_cons_eq_if_modifyHead, if_neg (by simpa using hc.symm),
          ih hword]
        rfl
    rw [List.nil_append, hsplit]
    exact List.mem_cons_self
  | cons c front ih =>
    obtain ⟨part, hpart, hinfix⟩ := ih
    rw [List.cons_append, List.cons_append, List.splitOn_cons_eq_if_modifyHead]
    split
    · exact ⟨part, List.mem_cons_of_mem [] hpart, hinfix⟩
    · obtain ⟨first, parts, hparts⟩ :=
        List.exists_cons_of_ne_nil (List.splitOn_ne_nil '/' (front ++ word ++ behind))
      rw [hparts] at hpart ⊢
      rcases List.mem_cons.1 hpart with rfl | hpart
      · exact ⟨c :: part, List.mem_cons_self, List.infix_cons hinfix⟩
      · exact ⟨part, List.mem_cons_of_mem _ hpart, hinfix⟩

/-- A segment has the text of a marker that is not at the very start. -/
theorem exists_segment_of_marker {front : List Char} (hfront : front ≠ []) (behind : List Char) :
    ∃ segment ∈ segments (String.ofList (front ++ marker ++ behind)), marker <:+: segment := by
  have hinfix : marker <:+: dropMarker (front ++ marker ++ behind) := by
    rw [dropMarker_append_marker hfront]
    exact ⟨_, _, rfl⟩
  obtain ⟨segment, hsegment, hmarker⟩ := exists_mem_splitOn_of_infix (by decide) hinfix
  refine ⟨segment, ?_, hmarker⟩
  rw [segments, String.toList_ofList, List.mem_filter]
  refine ⟨hsegment, ?_⟩
  cases segment with
  | nil => exact absurd (List.infix_nil.1 hmarker) (by decide)
  | cons c segment => rfl

/-! ## Canonical texts -/

theorem isCanonical_ofSegments (h : ∀ segment ∈ segs, IsSegment segment) :
    IsCanonical (ofSegments segs) := by
  by_cases hne : segs = []
  · exact .inl (by rw [hne]; rfl)
  · exact .inr ⟨segs, hne, h, toList_ofSegments hne⟩

theorem isCanonical_normalize (raw : String) : IsCanonical (normalize raw) :=
  isCanonical_ofSegments fun _ => isSegment_of_mem_segments

/-- The canonical texts are those that normalising leaves alone. -/
theorem isCanonical_iff : IsCanonical path ↔ normalize path = path := by
  constructor
  · rintro (rfl | ⟨segs, hne, hsegs, hpath⟩)
    · rfl
    · obtain rfl : ofSegments segs = path :=
        String.toList_inj.1 (by rw [toList_ofSegments hne, hpath])
      rw [normalize, segments_ofSegments hsegs]
  · exact fun h => h ▸ isCanonical_normalize path

theorem normalize_eq_iff : normalize raw = normalize other ↔ segments raw = segments other := by
  constructor
  · intro h
    rw [← segments_normalize raw, h, segments_normalize]
  · exact fun h => congrArg ofSegments h

/-- A canonical text consists of its segments as it is, since it has no marker in front. -/
theorem IsCanonical.consistsOf_iff (h : IsCanonical path) :
    ConsistsOf path.toList segs ↔ segments path = segs := by
  obtain ⟨rest, hrest⟩ := IsNormal.exists_slash (isCanonical_iff.1 h)
  have hdrop : dropMarker path.toList = path.toList := by rw [hrest, dropMarker_slash]
  rw [InternalPath.consistsOf_iff, segments, hdrop]

/-- Normalising computes a canonical form. The result is canonical and consists of the segments that
the text names; it is the text itself just if that is canonical, and two texts have the same result
just if they name the same segments. A text behind a canonical one and a slash adds its segments. A
marker is removed at the very start only, and one that stands anywhere else is in a segment. -/
theorem normalize_is_canonical :
    (∀ raw, IsCanonical (normalize raw) ∧ normalize (normalize raw) = normalize raw ∧
      (normalize raw = raw ↔ IsCanonical raw)) ∧
    (∀ text, ∃! segs, ConsistsOf text segs) ∧ (∀ raw, ∃! segs, Names raw segs) ∧
    (∀ raw segs, Names raw segs → ConsistsOf (normalize raw).toList segs) ∧
    (∀ raw other, normalize raw = normalize other ↔ ∃ segs, Names raw segs ∧ Names other segs) ∧
    (∀ path text segs more, IsCanonical path → ConsistsOf path.toList segs →
      ConsistsOf text.toList more →
      ConsistsOf (normalize (path ++ "/" ++ text)).toList (segs ++ more)) ∧
    ∀ front behind, front ≠ [] →
      (∀ text, WithoutMarker front text →
        WithoutMarker (front ++ marker ++ behind) (text ++ marker ++ behind)) ∧
      ∀ segs, Names (String.ofList (front ++ marker ++ behind)) segs →
        ∃ segment ∈ segs, marker <:+: segment := by
  refine ⟨fun raw => ⟨isCanonical_normalize raw, normalize_normalize raw, isCanonical_iff.symm⟩,
    existsUnique_consistsOf,
    fun raw => ⟨segments raw, names_segments raw, fun _ h => (names_iff.1 h).symm⟩, ?_, ?_, ?_, ?_⟩
  · intro raw segs h
    rw [(isCanonical_normalize raw).consistsOf_iff, segments_normalize]
    exact names_iff.1 h
  · intro raw other
    simp only [normalize_eq_iff, names_iff]
    exact ⟨fun h => ⟨_, h, rfl⟩, fun ⟨_, h, h'⟩ => h.trans h'.symm⟩
  · intro path text segs more hpath hsegs hmore
    rw [(isCanonical_normalize _).consistsOf_iff, segments_normalize, segments_append_slash,
      hpath.consistsOf_iff.1 hsegs]
    exact congrArg (segs ++ ·) (InternalPath.consistsOf_iff.1 hmore)
  · intro front behind hfront
    constructor
    · intro text htext
      rw [withoutMarker_iff] at htext ⊢
      rw [dropMarker_append_marker hfront, htext]
    · intro segs hsegs
      rw [← names_iff.1 hsegs]
      exact exists_segment_of_marker hfront behind

/-- A path continued by a text that begins with a marker, and a text with two markers in front. -/
theorem normalize_is_canonical_marked :
    ConsistsOf (normalize "/a/<FS_TREE>//b/").toList
        ["a".toList, "<FS_TREE>".toList, "b".toList] ∧
      normalize "<FS_TREE><FS_TREE>//b" = normalize "/<FS_TREE>/b/" ∧
      WithoutMarker "<FS_TREE><FS_TREE>//b".toList "<FS_TREE>//b".toList ∧
      ∃ segment ∈ segments "<FS_TREE><FS_TREE>//b", marker <:+: segment := by
  obtain ⟨-, -, -, -, hsame, hcontinued, hmarked⟩ := normalize_is_canonical
  refine ⟨?_, ?_, ?_, ?_⟩
  · exact hcontinued "/a" "<FS_TREE>//b/" ["a".toList] ["<FS_TREE>".toList, "b".toList]
      (isCanonical_iff.2 (by decide)) (InternalPath.consistsOf_iff.2 (by decide))
      (InternalPath.consistsOf_iff.2 (by decide))
  · exact (hsame _ _).2 ⟨["<FS_TREE>".toList, "b".toList], names_iff.2 (by decide),
      names_iff.2 (by decide)⟩
  · exact (hmarked marker "//b".toList (by decide)).1 [] (withoutMarker_iff.2 (by decide))
  · exact (hmarked marker "//b".toList (by decide)).2 _ (names_segments _)

end BtrfsTopology.InternalPath
