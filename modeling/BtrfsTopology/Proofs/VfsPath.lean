import BtrfsTopology.Proofs.InternalPath
import BtrfsTopology.VfsPath

/-!
# Appending to mounted paths and taking off again

However a mount's path was written, with slashes at its end or without, appending segments to it
adds one component for each, and what is then behind any writing of the mount's path are the same
segments. The one segment that would be lost on the way is `.`.

## Main definitions

* `VfsPath.IsStep` — a segment that stands for a component
* `VfsPath.stepComponent` — the component that it stands for

## Main results

* `VfsPath.components_join` — appending adds a component for each segment
* `VfsPath.below?_join` — taking off undoes appending
-/

namespace BtrfsTopology.VfsPath

open InternalPath

/-- A segment that stands for a component when it is appended to a path. -/
def IsStep (segment : Segment) : Prop :=
  IsSegment segment ∧ segment ≠ ['.']

/-- The component that a step stands for. -/
def stepComponent (segment : Segment) : Component :=
  if segment = ['.', '.'] then .up else .name segment

variable {base other : VfsPath} {segs : List Segment}

theorem innerPart_of_isStep {segment : Segment} (h : IsStep segment) :
    innerPart segment = (segment, some (stepComponent segment)) := by
  obtain ⟨⟨hne, -⟩, hdot⟩ := h
  rw [innerPart, stepComponent, if_neg (by simp [hne, hdot])]
  split <;> rfl

/-! ## Texts -/

theorem splitOn_relativeText (h : ∀ segment ∈ segs, IsSegment segment) (hne : segs ≠ []) :
    (relativeText segs).toList.splitOn '/' = segs := by
  rw [relativeText, String.toList_ofList]
  exact List.splitOn_intercalate '/' (fun segment hsegment => (h segment hsegment).2) hne

/-- In front of the slash that an absolute path begins with there is nothing. -/
theorem exists_splitOn_of_isAbsolute {path : VfsPath} (h : path.isAbsolute = true) :
    ∃ behind : List Char, path.text.toList.splitOn '/' = [] :: behind.splitOn '/' := by
  obtain ⟨behind, hbehind⟩ := List.head?_eq_some_iff.1 (by simpa [isAbsolute] using h)
  exact ⟨behind, by rw [hbehind, Text.splitOn_cons_self]⟩

/-! ## Parts -/

/-- What is written behind a slash adds its parts, none of which is a leading one. -/
theorem exists_parts_slash (text : String) :
    ∃ front, (text.toList ≠ [] → (VfsPath.mk text).parts = front) ∧
      ∀ behind, (VfsPath.mk (text ++ "/" ++ behind)).parts =
        front ++ (behind.toList.splitOn '/').map innerPart := by
  have hsplit (behind : String) : (text ++ "/" ++ behind).toList.splitOn '/' =
      text.toList.splitOn '/' ++ behind.toList.splitOn '/' := by
    have htext : (text ++ "/" ++ behind).toList = text.toList ++ '/' :: behind.toList := by simp
    rw [htext, List.splitOn_append_cons_self]
  cases hparts : text.toList.splitOn '/' with
  | nil => exact absurd hparts (List.splitOn_ne_nil '/' _)
  | cons first rest =>
    -- A slash behind the empty text makes the path absolute, which the text alone is not.
    have habsolute (behind : String) : (VfsPath.mk (text ++ "/" ++ behind)).isAbsolute =
        (VfsPath.mk (text ++ "/")).isAbsolute := by
      simp only [isAbsolute, String.toList_append, List.head?_append, Option.or_assoc]
      rfl
    refine ⟨leadingPart (VfsPath.mk (text ++ "/")).isAbsolute first :: rest.map innerPart, ?_, ?_⟩
    · intro hne
      have hsame : (VfsPath.mk (text ++ "/")).isAbsolute = (VfsPath.mk text).isAbsolute := by
        simp only [isAbsolute, String.toList_append, List.head?_append_of_ne_nil _ hne]
      rw [parts, hparts, hsame]
    · intro behind
      rw [parts, hsplit, hparts, habsolute]
      simp only [List.cons_append, List.map_append]

/-- Steps alone are a relative path that does not begin with `.`. -/
theorem parts_relativeText (h : ∀ segment ∈ segs, IsStep segment) (hne : segs ≠ []) :
    (VfsPath.mk (relativeText segs)).parts = segs.map innerPart := by
  rw [parts, splitOn_relativeText (fun segment hsegment => (h segment hsegment).1) hne]
  cases segs with
  | nil => exact absurd rfl hne
  | cons segment rest =>
    obtain ⟨⟨hempty, hslash⟩, hdot⟩ := h segment List.mem_cons_self
    have habsolute : (VfsPath.mk (relativeText (segment :: rest))).isAbsolute = false := by
      rw [isAbsolute, relativeText, String.toList_ofList, intercalate_segments,
        List.head?_append_of_ne_nil _ hempty]
      simpa using fun hhead => hslash (List.mem_of_head? hhead)
    simp [habsolute, leadingPart, hdot]

/-- Appending segments to a path that is not empty puts them in the place of the parts at the end
that stand for nothing. -/
theorem exists_parts_join_of_text (hbase : base.text.toList ≠ [])
    (h : ∀ segment ∈ segs, IsSegment segment) :
    ∃ front blank, base.parts = front ++ blank ∧ (∀ part ∈ blank, part.2 = none) ∧
      (base.join (relativeText segs)).parts = front ++ segs.map innerPart := by
  by_cases hnil : segs = []
  · subst hnil
    -- Appending nothing leaves the path as it is.
    exact ⟨base.parts, [], by simp, by simp, by simp [join, relativeText]⟩
  have hsplit := splitOn_relativeText h hnil
  obtain ⟨text⟩ := base
  rw [join, if_neg (toList_relativeText_ne_nil h hnil)]
  split
  · next hend =>
    obtain ⟨start, hstart⟩ := List.getLast?_eq_some_iff.1 (hend.resolve_left hbase)
    obtain rfl : text = String.ofList start ++ "/" := String.toList_inj.1 (by simp [hstart])
    -- Behind the slash at the end there is an empty part, whose place the segments take.
    obtain ⟨front, -, hbehind⟩ := exists_parts_slash (String.ofList start)
    refine ⟨front, [([], none)], ?_, by simp, by rw [hbehind, hsplit]⟩
    rw [← String.append_empty (s := String.ofList start ++ "/"), hbehind]
    rfl
  · obtain ⟨front, hfront, hbehind⟩ := exists_parts_slash text
    refine ⟨front, [], ?_, by simp, by rw [hbehind, hsplit]⟩
    rw [List.append_nil]
    exact hfront hbase

/-- Steps are appended to the empty path in the same way, as none of them is the `.` that a relative
path can begin with. -/
theorem exists_parts_join (base : VfsPath) (h : ∀ segment ∈ segs, IsStep segment) :
    ∃ front blank, base.parts = front ++ blank ∧ (∀ part ∈ blank, part.2 = none) ∧
      (base.join (relativeText segs)).parts = front ++ segs.map innerPart := by
  have hsegments : ∀ segment ∈ segs, IsSegment segment := fun segment hsegment =>
    (h segment hsegment).1
  by_cases hbase : base.text.toList = []
  · obtain ⟨text⟩ := base
    obtain rfl : text = "" := String.toList_inj.1 hbase
    by_cases hnil : segs = []
    · subst hnil
      exact ⟨_, [], (List.append_nil _).symm, by simp, rfl⟩
    -- The one part of the empty path stands for nothing.
    refine ⟨[], [([], none)], rfl, by simp, ?_⟩
    rw [join, if_neg (toList_relativeText_ne_nil hsegments hnil), if_pos (.inl rfl),
      String.empty_append, parts_relativeText h hnil, List.nil_append]
  · exact exists_parts_join_of_text hbase hsegments

/-! ## Components -/

theorem filterMap_innerPart (h : ∀ segment ∈ segs, IsStep segment) :
    (segs.map innerPart).filterMap Prod.snd = segs.map stepComponent := by
  rw [List.filterMap_map, ← List.filterMap_eq_map]
  apply List.filterMap_congr
  intro segment hsegment
  simp [innerPart_of_isStep (h segment hsegment)]

theorem filterMap_blank {blank : List Part} (h : ∀ part ∈ blank, part.2 = none) :
    blank.filterMap Prod.snd = [] :=
  List.filterMap_eq_nil_iff.2 h

/-- Appending steps adds their components. -/
theorem components_join (base : VfsPath) (h : ∀ segment ∈ segs, IsStep segment) :
    (base.join (relativeText segs)).components = base.components ++ segs.map stepComponent := by
  obtain ⟨front, blank, hbase, hblank, hjoin⟩ := exists_parts_join base h
  rw [components, components, hbase, hjoin, List.filterMap_append, List.filterMap_append,
    filterMap_innerPart h, filterMap_blank hblank, List.append_nil]

/-! ## Taking off -/

/-- Taking off all components of the parts in front leaves some that stand for nothing, at most. -/
theorem exists_dropComponents (front behind : List Part) :
    ∃ blank, (∀ part ∈ blank, part.2 = none) ∧
      dropComponents (front.filterMap Prod.snd).length (front ++ behind) = blank ++ behind := by
  induction front with
  | nil => exact ⟨[], by simp, by simp [dropComponents]⟩
  | cons part front ih =>
    obtain ⟨blank, hblank, hdrop⟩ := ih
    obtain ⟨text, component⟩ := part
    cases component with
    | some component => exact ⟨blank, hblank, by simpa [dropComponents] using hdrop⟩
    | none =>
      rw [List.filterMap_cons_none rfl]
      cases hcount : (front.filterMap Prod.snd).length with
      | zero =>
        -- No component is left to take off, so that the whole front is blank from here.
        rw [hcount, dropComponents] at hdrop
        refine ⟨(text, none) :: blank, by simpa using hblank, ?_⟩
        rw [dropComponents, List.cons_append, hdrop, List.cons_append]
      | succ n =>
        rw [hcount] at hdrop
        exact ⟨blank, hblank, by rw [List.cons_append, dropComponents, hdrop]⟩

theorem dropWhile_blank {blank behind : List Part} (hblank : ∀ part ∈ blank, part.2 = none)
    (hbehind : ∀ part ∈ behind, part.2 ≠ none) :
    (blank ++ behind).dropWhile (·.2.isNone) = behind := by
  rw [List.dropWhile_append_of_pos fun part hpart => by simp [hblank part hpart]]
  cases behind with
  | nil => rfl
  | cons part rest =>
    have hpart := hbehind part List.mem_cons_self
    exact List.dropWhile_cons_of_neg (by simpa using hpart)

/-- Nothing that stands for a component is trimmed. -/
theorem trimParts_append {blank behind : List Part} (hblank : ∀ part ∈ blank, part.2 = none)
    (hbehind : ∀ part ∈ behind, part.2 ≠ none) : trimParts (blank ++ behind) = behind := by
  have hreverse : behind.reverse.dropWhile (·.2.isNone) = behind.reverse :=
    dropWhile_blank (fun _ hpart => absurd hpart List.not_mem_nil) fun part hpart =>
      hbehind part (List.mem_reverse.1 hpart)
  rw [trimParts, dropWhile_blank hblank hbehind, hreverse, List.reverse_reverse]

/-- Behind any writing of a path, what was appended to it is left as it was. -/
theorem below?_join (hsame : other.components = base.components)
    (h : ∀ segment ∈ segs, IsStep segment) :
    (base.join (relativeText segs)).below? other = some (relativeText segs) := by
  have hstarts : (base.join (relativeText segs)).startsWith other = true := by
    rw [startsWith, components_join base h, hsame]
    exact List.isPrefixOf_iff_prefix.2 (List.prefix_append _ _)
  obtain ⟨front, blank, hbase, hblank, hjoin⟩ := exists_parts_join base h
  have hcount : other.components.length = (front.filterMap Prod.snd).length := by
    rw [hsame, components, hbase, List.filterMap_append, filterMap_blank hblank, List.append_nil]
  obtain ⟨left, hleft, hdrop⟩ := exists_dropComponents front (segs.map innerPart)
  have hsteps : ∀ part ∈ segs.map innerPart, part.2 ≠ none := by
    intro part hpart
    obtain ⟨segment, hsegment, rfl⟩ := List.mem_map.1 hpart
    simp [innerPart_of_isStep (h segment hsegment)]
  rw [below?, if_pos hstarts, hjoin, hcount, hdrop, trimParts_append hleft hsteps]
  simp [relativeText, Function.comp_def, innerPart]

end BtrfsTopology.VfsPath
