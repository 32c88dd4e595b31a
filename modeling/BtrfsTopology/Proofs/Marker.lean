import Mathlib.Data.List.Basic
import BtrfsTopology.Text.Split

/-!
# Where a marker is found

Free text is cut at a marker, from the left at its first occurrence and from the right at its last.
The first occurrence is the one with the shortest text in front of it. It is known as soon as that
text cannot have the marker: when it has none of the characters that the marker begins with, or when
the marker is a word between separators and none of the parts in front is that word.

## Main results

* `Text.cutFirst?_eq_dropInfix?`, `Text.cutFirst?_eq_some_iff` — what the first occurrence is
* `Text.cutFirst?_append`, `Text.cutFirst?_intercalate` — where it is found
* `Text.cutLast?_eq_none_iff`, `Text.cutLast?_append` — whether and where the last one is found
-/

namespace BtrfsTopology.Text

variable {marker s before after : List Char}

/-! ## Beginnings -/

@[simp] theorem isPrefixOf?_append (lead rest : List Char) :
    lead.isPrefixOf? (lead ++ rest) = some rest :=
  List.isPrefixOf?_eq_some_iff_append_eq.2 rfl

theorem isPrefixOf?_eq_none_iff {lead : List Char} :
    lead.isPrefixOf? s = none ↔ ¬ lead <+: s := by
  rw [← Option.not_isSome_iff_eq_none, List.isSome_isPrefixOf?_eq_isPrefixOf,
    List.isPrefixOf_iff_prefix]

/-- A text begins with what it began with before it was continued by a character that is not in
there. -/
theorem isPrefixOf?_append_cons {c : Char} {lead : List Char} (h : c ∉ lead)
    (before after : List Char) :
    lead.isPrefixOf? (before ++ c :: after) =
      (lead.isPrefixOf? before).map (· ++ c :: after) := by
  induction lead generalizing before with
  | nil => rfl
  | cons d lead ih =>
    obtain ⟨hc, hlead⟩ : c ≠ d ∧ c ∉ lead := by simpa using h
    cases before with
    | nil => simp [List.isPrefixOf?, hc.symm]
    | cons e before =>
      rw [List.cons_append, List.isPrefixOf?, List.isPrefixOf?, ih hlead]
      split <;> rfl

theorem dropPrefix?_eq_isPrefixOf? (s lead : List Char) :
    s.dropPrefix? lead = lead.isPrefixOf? s := by
  ext rest
  rw [List.dropPrefix?_eq_some_iff, List.isPrefixOf?_eq_some_iff_append_eq]
  simpa using eq_comm

/-! ## The first occurrence -/

/-- The text in front of the marker is gathered in reverse. -/
theorem dropInfix?_go_eq (marker s front : List Char) :
    List.dropInfix?.go marker s front =
      (cutFirst? marker s).map fun (before, after) => (front.reverse ++ before, after) := by
  induction s generalizing front with
  | nil =>
    rw [List.dropInfix?.go, cutFirst?]
    split <;> simp
  | cons c rest ih =>
    rw [List.dropInfix?.go, cutFirst?, dropPrefix?_eq_isPrefixOf?]
    cases marker.isPrefixOf? (c :: rest) with
    | some after => simp
    | none => simp [ih, Function.comp_def]

/-- The cut at the first occurrence is the library's. -/
theorem cutFirst?_eq_dropInfix? (marker s : List Char) :
    cutFirst? marker s = s.dropInfix? marker := by
  simp [List.dropInfix?, dropInfix?_go_eq]

/-- A text is cut where the shortest text is in front of the marker. -/
theorem cutFirst?_eq_some_iff :
    cutFirst? marker s = some (before, after) ↔
      s = before ++ marker ++ after ∧
        ∀ front rest, s = front ++ marker ++ rest → before.length ≤ front.length := by
  rw [cutFirst?_eq_dropInfix?, List.dropInfix?_eq_some_iff]
  constructor
  · rintro ⟨⟨found, htext, hfound⟩, hleast⟩
    obtain rfl := beq_iff_eq.1 hfound
    exact ⟨htext, fun front rest heq => hleast front found rest heq hfound⟩
  · rintro ⟨htext, hleast⟩
    refine ⟨⟨marker, htext, beq_iff_eq.2 rfl⟩, fun front found rest heq hfound => ?_⟩
    obtain rfl := beq_iff_eq.1 hfound
    exact hleast front rest heq

/-- A cut makes the text up again with the marker in between. -/
theorem eq_of_cutFirst? (h : cutFirst? marker s = some (before, after)) :
    s = before ++ marker ++ after :=
  (cutFirst?_eq_some_iff.1 h).1

/-- A marker is first where none of the text before it has the character that it begins with. -/
theorem cutFirst?_append {c : Char} (h : c ∉ before) (marker after : List Char) :
    cutFirst? (c :: marker) (before ++ (c :: marker) ++ after) = some (before, after) := by
  refine cutFirst?_eq_some_iff.2 ⟨rfl, fun front rest heq => ?_⟩
  rw [List.append_assoc, List.append_assoc, List.append_eq_append_iff] at heq
  obtain ⟨between, rfl, -⟩ | ⟨between, rfl, hbetween⟩ := heq
  · simp
  · -- A character of `before` behind `front` would be the marker's first.
    cases between with
    | nil => simp
    | cons d between =>
      obtain ⟨rfl, -⟩ := List.cons.inj hbetween
      simp at h

/-- A word between separators is first behind parts of which none is that word. -/
theorem cutFirst?_intercalate {separator : Char} {word : List Char} {parts : List (List Char)}
    (hne : parts ≠ []) (hword : separator ∉ word)
    (hparts : ∀ part ∈ parts, separator ∉ part ∧ part ≠ word) (after : List Char) :
    cutFirst? (separator :: (word ++ [separator]))
        ([separator].intercalate parts ++ (separator :: (word ++ [separator])) ++ after) =
      some ([separator].intercalate parts, after) := by
  refine cutFirst?_eq_some_iff.2 ⟨rfl, fun front rest heq => ?_⟩
  -- Both sides have the same parts, and the word is no part before the one it is put behind.
  have hsplit (front rest : List Char) :
      (front ++ separator :: (word ++ [separator]) ++ rest).splitOn separator =
        front.splitOn separator ++ word :: rest.splitOn separator := by
    have htext : front ++ separator :: (word ++ [separator]) ++ rest =
        front ++ separator :: (word ++ separator :: rest) := by simp
    rw [htext, List.splitOn_append_cons_self, List.splitOn_append_cons_self,
      List.splitOn_eq_singleton hword, List.singleton_append]
  have hparted := congrArg (List.splitOn separator) heq
  rw [hsplit, hsplit, List.splitOn_intercalate separator (fun part h => (hparts part h).1) hne,
    List.append_eq_append_iff] at hparted
  obtain ⟨more, hfront, -⟩ | ⟨more, hparted, hmore⟩ := hparted
  · have hjoined : [separator].intercalate (front.splitOn separator) = front :=
      List.intercalate_splitOn separator
    rw [← hjoined, hfront]
    cases more with
    | nil => simp
    | cons part more => simp [intercalate_append_cons hne]
  · cases more with
    | nil => simp [hparted]
    | cons part more =>
      obtain ⟨rfl, -⟩ := List.cons.inj hmore
      exact absurd rfl (hparts word (by simp [hparted])).2

/-! ## The last occurrence -/

theorem cutLast?_eq_none_iff : cutLast? marker s = none ↔ ¬ marker <:+: s := by
  induction s with
  | nil => simp [cutLast?]
  | cons c rest ih =>
    rw [List.infix_cons_iff, not_or, ← isPrefixOf?_eq_none_iff, ← ih, cutLast?]
    cases cutLast? marker rest <;> simp

/-- A marker is last where it does not begin again within itself or behind. -/
theorem cutLast?_append {c : Char} (h : cutLast? (c :: marker) (marker ++ after) = none)
    (before : List Char) :
    cutLast? (c :: marker) (before ++ (c :: marker) ++ after) = some (before, after) := by
  induction before with
  | nil =>
    rw [List.nil_append, List.cons_append, cutLast?, h, ← List.cons_append, isPrefixOf?_append]
    rfl
  | cons d before ih =>
    rw [List.append_assoc, List.cons_append, cutLast?, ← List.append_assoc, ih]

end BtrfsTopology.Text
