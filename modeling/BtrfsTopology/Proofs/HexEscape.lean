import BtrfsTopology.Proofs.Utf8
import BtrfsTopology.Text.HexEscape

/-!
# Escaped texts are read back

A writer decides character by character. One that it leaves alone stands for itself; of one that it
escapes, every octet is written as `\x` and two digits, of either case. It has to escape the
quotation mark, the backslash and the line feed, and is free to escape more, other control
characters among them. So a backslash in an escaped text is the beginning of an escape, and what an
escape denotes is never read as part of another one.

## Main definitions

* `HexEscape.IsDigit` — the digits of a number, in both cases
* `HexEscape.EscapedOctets`, `HexEscape.Escaped` — what may be written for octets and for a text
* `HexEscape.escapeWhere` — a writer that escapes the characters with a given property

## Main results

* `HexEscape.decode_of_escaped` — reading undoes every way of writing
* `HexEscape.eq_backslash_of_mem_escaped` — an escaped text has no quotation mark and no line feed
-/

namespace BtrfsTopology.HexEscape

/-! ## Digits -/

def lowerDigits : List Char :=
  ['0', '1', '2', '3', '4', '5', '6', '7', '8', '9', 'a', 'b', 'c', 'd', 'e', 'f']

def upperDigits : List Char :=
  ['0', '1', '2', '3', '4', '5', '6', '7', '8', '9', 'A', 'B', 'C', 'D', 'E', 'F']

/-- The character is a digit of the number, in one of the two cases. -/
def IsDigit (n : Nat) (c : Char) : Prop :=
  lowerDigits[n]? = some c ∨ upperDigits[n]? = some c

instance (n : Nat) (c : Char) : Decidable (IsDigit n c) :=
  inferInstanceAs (Decidable (_ ∨ _))

/-- Whether a writer must not let a character stand for itself. -/
def MustEscape (c : Char) : Prop :=
  c = '\x22' ∨ c = '\\' ∨ c = '\n'

instance (c : Char) : Decidable (MustEscape c) :=
  inferInstanceAs (Decidable (_ ∨ _ ∨ _))

/-- What holds of the sixteen digits of each case holds of every digit. -/
theorem IsDigit.induction {P : Nat → Char → Prop}
    (hlower : ∀ i : Fin 16, P i lowerDigits[i]) (hupper : ∀ i : Fin 16, P i upperDigits[i])
    {n : Nat} {c : Char} (h : IsDigit n c) : P n c := by
  rcases h with h | h
  all_goals obtain ⟨hn, rfl⟩ := List.getElem?_eq_some_iff.1 h
  · exact hlower ⟨n, hn⟩
  · exact hupper ⟨n, hn⟩

theorem digitValue?_of_isDigit {n : Nat} {c : Char} (h : IsDigit n c) : digitValue? c = some n :=
  h.induction (P := fun n c => digitValue? c = some n) (by decide) (by decide)

theorem isDigit_of_digitValue? {n : Nat} {c : Char} (h : digitValue? c = some n) : IsDigit n c := by
  have hlt : c.toNat < 128 := by
    have hle {d : Char} (hd : c ≤ d) : c.toNat ≤ d.toNat := UInt32.le_iff_toNat_le.1 hd
    rw [digitValue?] at h
    split at h
    · next hc => exact Nat.lt_of_le_of_lt (hle hc.2) (by decide)
    · split at h
      · next hc => exact Nat.lt_of_le_of_lt (hle hc.2) (by decide)
      · split at h
        · next hc => exact Nat.lt_of_le_of_lt (hle hc.2) (by decide)
        · contradiction
  have hall : ∀ m : Fin 128, ∀ k ∈ digitValue? (Char.ofNat m), IsDigit k (Char.ofNat m) := by
    decide
  have hchar := hall ⟨c.toNat, hlt⟩ n
  rw [Char.ofNat_toNat] at hchar
  exact hchar h

theorem lt_of_isDigit {n : Nat} {c : Char} (h : IsDigit n c) : n < 16 :=
  h.induction (P := fun n _ => n < 16) (by decide) (by decide)

theorem not_isDigit_plus (n : Nat) : ¬ IsDigit n '+' := by
  intro h
  have hvalue := digitValue?_of_isDigit h
  contradiction

theorem not_mustEscape_of_isDigit {n : Nat} {c : Char} (h : IsDigit n c) : ¬MustEscape c :=
  h.induction (P := fun _ c => ¬MustEscape c) (by decide) (by decide)

/-- Two digits denote the octet that they are the digits of. -/
theorem octet?_of_isDigit {octet : UInt8} {high low : Char}
    (hhigh : IsDigit (octet.toNat / 16) high) (hlow : IsDigit (octet.toNat % 16) low) :
    octet? high low = some octet := by
  have hvalue : octet.toNat / 16 * 16 + octet.toNat % 16 = octet.toNat := by omega
  rw [octet?, digitValue?_of_isDigit hhigh, digitValue?_of_isDigit hlow]
  simp only [hvalue, UInt8.ofNat_toNat]

/-! ## Writing -/

/-- An escape for each octet. -/
inductive EscapedOctets : Utf8.Octets → List Char → Prop where
  | nil : EscapedOctets [] []
  | cons {octet : UInt8} {octets : Utf8.Octets} {high low : Char} {written : List Char}
      (hhigh : IsDigit (octet.toNat / 16) high) (hlow : IsDigit (octet.toNat % 16) low)
      (hrest : EscapedOctets octets written) :
      EscapedOctets (octet :: octets) ('\\' :: 'x' :: high :: low :: written)

/-- What may be written for a text. -/
inductive Escaped : List Char → List Char → Prop where
  | nil : Escaped [] []
  /-- A character that stands for itself. -/
  | plain {c : Char} {text written : List Char} (hc : ¬MustEscape c)
      (hrest : Escaped text written) : Escaped (c :: text) (c :: written)
  /-- A character of which all octets are escaped. -/
  | escape {c : Char} {text escapes written : List Char}
      (hc : EscapedOctets (String.utf8EncodeChar c) escapes) (hrest : Escaped text written) :
      Escaped (c :: text) (escapes ++ written)

/-- Writes octets with the digits of one case. -/
def escapeOctets (digits : List Char) (octets : Utf8.Octets) : List Char :=
  octets.flatMap fun octet =>
    ['\\', 'x', digits.getD (octet.toNat / 16) '0', digits.getD (octet.toNat % 16) '0']

/-- Writes a text so that the characters with a property are escaped. -/
def escapeWhere (p : Char → Bool) (digits : List Char) (text : List Char) : List Char :=
  text.flatMap fun c =>
    if p c then escapeOctets digits (String.utf8EncodeChar c) else [c]

/-- The digits at an octet's two halves are its own. -/
theorem isDigit_getD {digits : List Char} (hdigits : digits = lowerDigits ∨ digits = upperDigits)
    {n : Nat} (hn : n < 16) : IsDigit n (digits.getD n '0') := by
  have hall : ∀ i : Fin 16,
      IsDigit i (lowerDigits.getD i '0') ∧ IsDigit i (upperDigits.getD i '0') := by decide
  rcases hdigits with rfl | rfl
  · exact (hall ⟨n, hn⟩).1
  · exact (hall ⟨n, hn⟩).2

section Writer

variable {digits : List Char} (hdigits : digits = lowerDigits ∨ digits = upperDigits)
include hdigits

theorem escapedOctets_escapeOctets (octets : Utf8.Octets) :
    EscapedOctets octets (escapeOctets digits octets) := by
  induction octets with
  | nil => exact .nil
  | cons octet octets ih =>
    have hoctet := octet.toNat_lt
    exact .cons (isDigit_getD hdigits (by omega)) (isDigit_getD hdigits (by omega)) ih

/-- Every text can be written, and in as many ways as there are choices of what to escape. -/
theorem escaped_escapeWhere {p : Char → Bool} (hp : ∀ c, MustEscape c → p c = true)
    (text : List Char) : Escaped text (escapeWhere p digits text) := by
  induction text with
  | nil => exact .nil
  | cons c text ih =>
    rw [escapeWhere, List.flatMap_cons]
    by_cases hc : p c = true
    · rw [if_pos hc]
      exact .escape (escapedOctets_escapeOctets hdigits _) ih
    · rw [if_neg hc]
      exact .plain (fun hmust => hc (hp c hmust)) ih

end Writer

/-! ## Reading -/

/-- Behind its backslash, an escape is taken as a whole. -/
theorem decode_escapedOctets {octets : Utf8.Octets} {written : List Char}
    (h : EscapedOctets octets written) (rest : List Char) :
    decode (written ++ rest) = octets ++ decode rest := by
  induction h with
  | nil => rfl
  | cons hhigh hlow _ ih =>
    simp only [List.cons_append, decode, octet?_of_isDigit hhigh hlow, ih]

theorem decode_plain {c : Char} (hc : c ≠ '\\') (rest : List Char) :
    decode (c :: rest) = String.utf8EncodeChar c ++ decode rest := by
  rw [decode]
  · simp [Utf8.encode]
  · simp [hc]

/-- Reading undoes every way of writing. -/
theorem decode_of_escaped {text written : List Char} (h : Escaped text written) :
    decode written = Utf8.encode text := by
  induction h with
  | nil => rfl
  | plain hc _ ih =>
    -- A backslash does not stand for itself, so no escape begins here.
    rw [decode_plain (fun hbackslash => hc (.inr (.inl hbackslash))), ih]
    rfl
  | escape hc _ ih =>
    rw [decode_escapedOctets hc, ih]
    rfl

/-- Of the characters that must be escaped, escapes have the backslash only. -/
theorem eq_backslash_of_mem_escapedOctets {octets : Utf8.Octets} {written : List Char}
    (h : EscapedOctets octets written) {c : Char} (hmem : c ∈ written) (hmust : MustEscape c) :
    c = '\\' := by
  induction h with
  | nil => contradiction
  | cons hhigh hlow _ ih =>
    simp only [List.mem_cons] at hmem
    rcases hmem with rfl | rfl | rfl | rfl | hmem
    · rfl
    · contradiction
    · exact absurd hmust (not_mustEscape_of_isDigit hhigh)
    · exact absurd hmust (not_mustEscape_of_isDigit hlow)
    · exact ih hmem

/-- Of the characters that must be escaped, an escaped text has the backslash only. -/
theorem eq_backslash_of_mem_escaped {text written : List Char} (h : Escaped text written) {c : Char}
    (hmem : c ∈ written) (hmust : MustEscape c) : c = '\\' := by
  induction h with
  | nil => contradiction
  | plain hc _ ih =>
    rcases List.mem_cons.1 hmem with rfl | hmem
    · contradiction
    · exact ih hmem
  | escape hc _ ih =>
    rcases List.mem_append.1 hmem with hmem | hmem
    · exact eq_backslash_of_mem_escapedOctets hc hmem hmust
    · exact ih hmem

theorem quotation_not_mem_of_escaped {text written : List Char} (h : Escaped text written) :
    '\x22' ∉ written := fun hmem =>
  absurd (eq_backslash_of_mem_escaped h hmem (.inl rfl)) (by decide)

theorem lineFeed_not_mem_of_escaped {text written : List Char} (h : Escaped text written) :
    '\n' ∉ written := fun hmem =>
  absurd (eq_backslash_of_mem_escaped h hmem (.inr (.inr rfl))) (by decide)

end BtrfsTopology.HexEscape
