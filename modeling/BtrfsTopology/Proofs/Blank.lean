import BtrfsTopology.Text.Blank
import Mathlib.Data.List.Basic
import Mathlib.Data.List.TakeWhile
import Mathlib.Tactic.MkIffOfInductiveProp

/-!
# Trimming and line breaks

Blanks at either end of a text do not change what is left of it after trimming. A carriage return is
a blank, so a line that is trimmed loses nothing more with it, and a reader that passes blank lines
over reads the lines of a text as it reads the parts that the text was joined of.

## Main definitions

* `Text.IsLineEnd` — what a line can end with and have it read back

## Main results

* `Text.trim_of_ends`, `Text.trim_blank_append`, `Text.trim_append_blank` — what trimming drops
* `Text.trim_dropReturn` — trimming drops what a line break leaves
* `Text.filter_linesOfParts` — the lines of a text that are not blank
-/

namespace BtrfsTopology.Text

variable {s front back blanks : List Char} {c : Char}

/-! ## Trimming -/

theorem trimStart_of_head (h : ∀ c ∈ s.head?, isBlank c = false) : trimStart s = s := by
  cases s with
  | nil => rfl
  | cons c s => rw [trimStart, List.dropWhile_cons_of_neg (by simp [h c rfl])]

/-- A text that neither begins nor ends with a blank is not trimmed. -/
theorem trim_of_ends (hhead : ∀ c ∈ s.head?, isBlank c = false)
    (hlast : ∀ c ∈ s.getLast?, isBlank c = false) : trim s = s := by
  have hreverse : trimStart s.reverse = s.reverse :=
    trimStart_of_head (by rwa [List.head?_reverse])
  rw [trim, trimStart_of_head hhead, trimEnd, ← trimStart, hreverse, List.reverse_reverse]

theorem trimStart_blank_append (h : isBlankText blanks = true) (s : List Char) :
    trimStart (blanks ++ s) = trimStart s :=
  List.dropWhile_append_of_pos (List.all_eq_true.1 h)

theorem trimEnd_append_blank (s : List Char) (h : isBlankText blanks = true) :
    trimEnd (s ++ blanks) = trimEnd s := by
  have hreverse : isBlankText blanks.reverse = true := by simpa [isBlankText] using h
  rw [trimEnd, List.reverse_append, ← trimStart, trimStart_blank_append hreverse]
  rfl

theorem trim_blank_append (h : isBlankText blanks = true) (s : List Char) :
    trim (blanks ++ s) = trim s := by
  rw [trim, trimStart_blank_append h, trim]

theorem trim_of_isBlankText (h : isBlankText blanks = true) : trim blanks = [] := by
  simpa [trim, trimStart, trimEnd] using trim_blank_append h []

theorem trim_append_blank (s : List Char) (h : isBlankText blanks = true) :
    trim (s ++ blanks) = trim s := by
  by_cases hs : isBlankText s = true
  · rw [trim_blank_append hs, trim_of_isBlankText h, trim_of_isBlankText hs]
  · -- Something is left of the text before the blanks, so these stay for the trimming of the end.
    have hstart : trimStart (s ++ blanks) = trimStart s ++ blanks := by
      have hleft : ¬ (s.dropWhile isBlank).isEmpty = true := by
        rw [List.isEmpty_iff, List.dropWhile_eq_nil_iff]
        exact fun hall => hs (List.all_eq_true.2 hall)
      rw [trimStart, List.dropWhile_append, if_neg hleft, trimStart]
    rw [trim, hstart, trimEnd_append_blank _ h, trim]

theorem trimEnd_cons (hc : isBlank c = false) (s : List Char) :
    trimEnd (c :: s) = c :: trimEnd s := by
  rw [trimEnd, List.reverse_cons, List.dropWhile_append]
  split
  · next hempty => simp [trimEnd, List.isEmpty_iff.1 hempty, hc]
  · simp [trimEnd]

/-- A text begins with the same character after trimming if that is no blank. -/
theorem trim_cons (hc : isBlank c = false) (s : List Char) : trim (c :: s) = c :: trimEnd s := by
  rw [trim, trimStart_of_head (by simpa using hc), trimEnd_cons hc]

/-- What was trimmed ends with no blank. -/
theorem isBlank_getLast_trim (s : List Char) : ∀ c ∈ (trim s).getLast?, isBlank c = false := by
  intro c hc
  have hhead := List.head?_dropWhile_not isBlank (trimStart s).reverse
  rw [trim, trimEnd, List.getLast?_reverse] at hc
  rw [hc] at hhead
  exact hhead

/-! ## Ends of lines -/

/-- What a line can end with and have it read back: some text that has no line feed and is not
changed by trimming. -/
@[mk_iff]
structure IsLineEnd (s : List Char) : Prop where
  ne_nil : s ≠ []
  lineFeed_not_mem : '\n' ∉ s
  trim_eq : trim s = s

instance (s : List Char) : Decidable (IsLineEnd s) :=
  decidable_of_iff' _ (isLineEnd_iff s)

/-- A text that ends like this ends with no blank. -/
theorem IsLineEnd.isBlank_getLast (h : IsLineEnd back) (front : List Char) :
    ∀ c ∈ (front ++ back).getLast?, isBlank c = false := by
  rw [List.getLast?_append_of_ne_nil front h.ne_nil, ← h.trim_eq]
  exact isBlank_getLast_trim back

/-- A line that begins with no blank and ends like this is not trimmed. -/
theorem IsLineEnd.trim_cons_append (h : IsLineEnd back) (hc : isBlank c = false)
    (front : List Char) : trim (c :: front ++ back) = c :: front ++ back :=
  trim_of_ends (by simpa using hc) (h.isBlank_getLast (c :: front))

/-- A text that ends like this is not blank. -/
theorem IsLineEnd.isBlankText_append (h : IsLineEnd back) (front : List Char) :
    isBlankText (front ++ back) = false := by
  have hback : isBlankText back = false := by
    apply Bool.eq_false_iff.2
    intro hblank
    exact h.ne_nil (h.trim_eq ▸ trim_of_isBlankText hblank)
  simp only [isBlankText, List.all_append] at hback ⊢
  rw [hback, Bool.and_false]

/-! ## Line breaks -/

theorem dropReturn_of_last (h : ∀ c ∈ s.getLast?, isBlank c = false) : dropReturn s = s := by
  rw [dropReturn, if_neg]
  intro hlast
  exact absurd (h _ hlast) (by decide)

theorem isBlankText_dropReturn (h : isBlankText s = true) : isBlankText (dropReturn s) = true := by
  rw [dropReturn]
  split
  · exact List.all_eq_true.2 fun c hc => List.all_eq_true.1 h c (List.dropLast_subset _ hc)
  · exact h

/-- Trimming drops a carriage return as it drops any blank. -/
theorem trim_dropReturn (s : List Char) : trim (dropReturn s) = trim s := by
  rw [dropReturn]
  split
  · next hlast =>
    have hs : s.dropLast ++ ['\r'] = s := List.dropLast_append_getLast? _ hlast
    rw [← trim_append_blank s.dropLast (show isBlankText ['\r'] = true by decide), hs]
  · rfl

/-- If carriage returns are at the end of blank parts only, the lines that are not blank are the
parts that are not. -/
theorem filter_linesOfParts {parts : List (List Char)}
    (h : ∀ part ∈ parts, isBlankText part = true ∨ dropReturn part = part) :
    (linesOfParts parts).filter (fun line => !isBlankText line) =
      parts.filter fun part => !isBlankText part := by
  induction parts with
  | nil => rfl
  | cons part parts ih =>
    cases parts with
    | nil =>
      -- The last part is kept as it is, or is empty and therefore blank.
      cases part with
      | nil => rfl
      | cons c part => rfl
    | cons next parts =>
      have hrest := ih fun other hother => h other (List.mem_cons_of_mem part hother)
      rw [linesOfParts, List.filter_cons, List.filter_cons, hrest]
      · rcases h part List.mem_cons_self with hblank | hsame
        · simp [hblank, isBlankText_dropReturn hblank]
        · rw [hsame]
      · simp

end BtrfsTopology.Text
