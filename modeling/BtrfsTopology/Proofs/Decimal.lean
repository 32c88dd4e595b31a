import BtrfsTopology.Text.Decimal
import Mathlib.Tactic.Common

/-!
# Decimal identifiers are read back

Reading the shortest decimal text of a 64-bit word gives the word. On the way the value read so far
is the word without its last digits, so it never passes the bound before the word itself does.

## Main results

* `Text.readDigits_append` — digits are read one run after another
* `Text.readWord_writeWord` — reading undoes writing
-/

namespace BtrfsTopology.Text

/-- A run of digits is read on from the value of the run before it. -/
theorem readDigits_append {value next : Nat} {front : List Char}
    (h : readDigits value front = .ok next) (rest : List Char) :
    readDigits value (front ++ rest) = readDigits next rest := by
  induction front generalizing value with
  | nil =>
    obtain rfl : value = next := by simpa [readDigits] using h
    rfl
  | cons c front ih =>
    rw [readDigits] at h
    rw [List.cons_append, readDigits]
    cases hdigit : digitValue? c with
    | none => simp [hdigit] at h
    | some d =>
      simp only [hdigit] at h ⊢
      by_cases hbound : value * 10 + d < wordBound
      · rw [if_pos hbound] at h ⊢
        exact ih h
      · simp [hbound] at h

theorem digitValue?_digitChar {d : Nat} (h : d < 10) : digitValue? d.digitChar = some d := by
  have hall : ∀ i : Fin 10, digitValue? (Nat.digitChar i) = some i.val := by decide
  exact hall ⟨d, h⟩

theorem readDigits_digitChar {value d : Nat} (hdigit : d < 10)
    (hbound : value * 10 + d < wordBound) :
    readDigits value [d.digitChar] = .ok (value * 10 + d) := by
  rw [readDigits, digitValue?_digitChar hdigit]
  simp only [hbound, ↓reduceIte, readDigits]

theorem readDigits_toDigits {n : Nat} (h : n < wordBound) :
    readDigits 0 (Nat.toDigits 10 n) = .ok n := by
  induction n using Nat.strongRecOn with
  | ind n ih =>
    by_cases hsmall : n < 10
    · rw [Nat.toDigits_of_lt_base hsmall, readDigits_digitChar hsmall (by omega)]
      simp
    · -- all digits but the last are those of the quotient
      have hfront := ih (n / 10) (by omega) (by omega)
      have hvalue : n / 10 * 10 + n % 10 = n := by omega
      rw [Nat.toDigits_of_base_le (by omega) (by omega), readDigits_append hfront,
        readDigits_digitChar (by omega) (by omega), hvalue]

/-- Without a sign in front, a text is read digit by digit. -/
theorem readWord_of_head {c : Char} (h : c ≠ '+') (rest : List Char) :
    readWord (c :: rest) = readDigits 0 (c :: rest) := by
  rw [readWord]
  all_goals simp [h]

/-- Reading undoes writing. -/
theorem readWord_writeWord {n : Nat} (h : n < wordBound) :
    readWord (writeWord n).toList = .ok n := by
  rw [writeWord, String.toList_ofList]
  have hread := readDigits_toDigits h
  cases htext : Nat.toDigits 10 n with
  | nil => exact absurd htext Nat.toDigits_ne_nil
  | cons c rest =>
    have hdigit : c.isDigit = true :=
      Nat.isDigit_of_mem_toDigits (by decide) (by decide) (htext ▸ List.mem_cons_self)
    rw [htext] at hread
    rw [readWord_of_head (by rintro rfl; contradiction), hread]

/-- The text of a number has digits only. -/
theorem isDigit_of_mem_writeWord {n : Nat} {c : Char} (h : c ∈ (writeWord n).toList) :
    c.isDigit = true := by
  rw [writeWord, String.toList_ofList] at h
  exact Nat.isDigit_of_mem_toDigits (by decide) (by decide) h

theorem not_mem_writeWord {c : Char} (h : c.isDigit = false) (n : Nat) :
    c ∉ (writeWord n).toList := by
  intro hmem
  rw [isDigit_of_mem_writeWord hmem] at h
  contradiction

end BtrfsTopology.Text
