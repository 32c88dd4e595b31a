/-!
# Cutting text

Listings are cut into lines, lines at separators, and free text at a marker that is searched from
either end. Cutting at separators and joining again are `List.splitOn` and `List.intercalate`.

## Main definitions

* `Text.lines` — the lines of a text, each without its line break
* `Text.cutFirst?`, `Text.cutLast?` — the two sides of a marker's first or last occurrence

## Main results

* `not_mem_of_mem_splitOn` — no part has the separator
* `mem_intercalate_iff`, `intercalate_concat_append` — what joining adds and where a text goes on
* `lines_intercalate` — the lines of a text that is joined of them
* `length_of_cutFirst?` — a cut leaves out the marker only
-/

namespace BtrfsTopology.Text

/-- A terminated line loses the carriage return that its line feed followed, one at most. -/
def dropReturn (line : List Char) : List Char :=
  if line.getLast? = some '\r' then line.dropLast else line

/-- The lines among the parts between line feeds: the last part is not terminated, so it keeps a
carriage return, and it is no line when it is empty. -/
def linesOfParts : List (List Char) → List (List Char)
  | [] => []
  | [last] => if last.isEmpty then [] else [last]
  | part :: parts => dropReturn part :: linesOfParts parts

/-- The lines of a text without their line breaks. -/
def lines (s : List Char) : List (List Char) :=
  linesOfParts (s.splitOn '\n')

/-- The text before and after the first occurrence of `marker`, as `List.dropInfix?` finds it. -/
def cutFirst? (marker : List Char) : List Char → Option (List Char × List Char)
  | [] => if marker.isEmpty then some ([], []) else none
  | c :: rest =>
    match marker.isPrefixOf? (c :: rest) with
    | some after => some ([], after)
    | none => (cutFirst? marker rest).map fun (before, after) => (c :: before, after)

/-- The text before and after the last occurrence of `marker`. -/
def cutLast? (marker : List Char) : List Char → Option (List Char × List Char)
  | [] => if marker.isEmpty then some ([], []) else none
  | c :: rest =>
    match cutLast? marker rest with
    | some (before, after) => some (c :: before, after)
    | none => (marker.isPrefixOf? (c :: rest)).map fun after => ([], after)

/-! ## Parts -/

/-- A separator in front has an empty part in front of it. -/
theorem splitOn_cons_self (separator : Char) (s : List Char) :
    (separator :: s).splitOn separator = [] :: s.splitOn separator := by
  simp [List.splitOn_cons_eq_if_modifyHead]

/-- No part has the separator. -/
theorem not_mem_of_mem_splitOn {separator : Char} {s part : List Char}
    (hpart : part ∈ s.splitOn separator) : separator ∉ part := by
  induction s generalizing part with
  | nil =>
    obtain rfl : part = [] := by simpa using hpart
    exact List.not_mem_nil
  | cons c rest ih =>
    obtain ⟨first, parts, hparts⟩ := List.exists_cons_of_ne_nil (List.splitOn_ne_nil separator rest)
    rw [List.splitOn_cons_eq_if_modifyHead, hparts] at hpart
    rw [hparts] at ih
    by_cases hc : c = separator
    · rw [if_pos (by simpa using hc)] at hpart
      rcases List.mem_cons.1 hpart with rfl | hpart
      · exact List.not_mem_nil
      · exact ih hpart
    · rw [if_neg (by simpa using hc), List.modifyHead_cons] at hpart
      rcases List.mem_cons.1 hpart with rfl | hpart
      · rw [List.mem_cons, not_or]
        exact ⟨Ne.symm hc, ih List.mem_cons_self⟩
      · exact ih (List.mem_cons_of_mem first hpart)

/-- Joining adds no characters but separators. -/
theorem mem_intercalate_iff {c separator : Char} (hne : c ≠ separator)
    {parts : List (List Char)} : c ∈ [separator].intercalate parts ↔ ∃ part ∈ parts, c ∈ part := by
  induction parts with
  | nil => simp
  | cons part parts ih =>
    cases parts with
    | nil => simp
    | cons next parts => simp [hne, ih]

theorem not_mem_intercalate {c separator : Char} (hne : c ≠ separator) {parts : List (List Char)}
    (h : ∀ part ∈ parts, c ∉ part) : c ∉ [separator].intercalate parts := by
  rw [mem_intercalate_iff hne]
  rintro ⟨part, hpart, hc⟩
  exact h part hpart hc

/-- Joining in front of a further text continues the last part. -/
theorem intercalate_concat_append (separator : Char) (parts : List (List Char))
    (last behind : List Char) :
    [separator].intercalate (parts ++ [last ++ behind]) =
      [separator].intercalate (parts ++ [last]) ++ behind := by
  induction parts with
  | nil => simp
  | cons part parts ih =>
    cases parts with
    | nil => simp
    | cons next parts => simpa using ih

/-- Parts are joined in front of further parts with a separator between the two. -/
theorem intercalate_append_cons {separator : Char} {parts : List (List Char)} (hne : parts ≠ [])
    (part : List Char) (more : List (List Char)) :
    [separator].intercalate (parts ++ part :: more) =
      [separator].intercalate parts ++ separator :: [separator].intercalate (part :: more) := by
  induction parts with
  | nil => contradiction
  | cons first parts ih =>
    cases parts with
    | nil => simp
    | cons next parts => simpa using ih (List.cons_ne_nil next parts)

/-- The lines of a text that is joined of parts without line feeds. -/
theorem lines_intercalate {parts : List (List Char)} (h : ∀ part ∈ parts, '\n' ∉ part) :
    lines (['\n'].intercalate parts) = linesOfParts parts := by
  cases parts with
  | nil => rfl
  | cons part parts => rw [lines, List.splitOn_intercalate '\n' h (List.cons_ne_nil part parts)]

/-! ## Markers -/

theorem length_of_isPrefixOf? {lead s rest : List Char} (h : lead.isPrefixOf? s = some rest) :
    lead.length + rest.length = s.length := by
  induction lead generalizing s with
  | nil =>
    obtain rfl : s = rest := Option.some.inj h
    exact Nat.zero_add s.length
  | cons c lead ih =>
    cases s with
    | nil => contradiction
    | cons d s =>
      have hcons : (if c == d then lead.isPrefixOf? s else none) = some rest := h
      have hrest := ih (Option.ite_none_right_eq_some.1 hcons).2
      simp only [List.length_cons]
      omega

/-- A cut leaves out the marker only. -/
theorem length_of_cutFirst? {marker s before after : List Char}
    (h : cutFirst? marker s = some (before, after)) :
    before.length + marker.length + after.length = s.length := by
  induction s generalizing before with
  | nil =>
    rw [cutFirst?] at h
    split at h
    · simp_all
    · contradiction
  | cons c rest ih =>
    rw [cutFirst?] at h
    split at h
    · next after' hprefix =>
      simp only [Option.some.injEq, Prod.mk.injEq] at h
      obtain ⟨rfl, rfl⟩ := h
      simpa using length_of_isPrefixOf? hprefix
    · simp only [Option.map_eq_some_iff, Prod.exists, Prod.mk.injEq] at h
      obtain ⟨b, a, hcut, rfl, rfl⟩ := h
      have hrest := ih hcut
      simp only [List.length_cons]
      omega

end BtrfsTopology.Text
