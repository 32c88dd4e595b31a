import BtrfsTopology.Proofs.HexEscape

/-!
# What escapes denote

An escape is `\x` and the two digits of an octet. A text is read in one pass from the left: an
escape stands for its octet, and every other character for itself, a `\x` with anything else behind
it included. What the two characters of an escape denote is a parameter of the pass, because the one
that is computed takes a sign for the first digit. There it reads fewer octets than the escapes of
two digits alone denote, and on a text without such a sign it reads just these.

## Main definitions

* `HexEscape.DenotesOctet` — which octet two characters are the digits of
* `HexEscape.Unescapes` — the octets of a text in one pass from the left
* `HexEscape.HasSignedEscape` — a sign stands where the first digit of an escape should be

## Main results

* `HexEscape.exists_unescapes`, `HexEscape.Unescapes.unique` — each text has one pass
* `HexEscape.unescapes_decode` — the pass that is computed
* `HexEscape.unescapes_decode_iff` — where it reads escapes of two digits only
-/

namespace BtrfsTopology

namespace HexEscape

open Utf8

/-- The characters are the two digits of the octet, each of either case. -/
def DenotesOctet (high low : Char) (octet : UInt8) : Prop :=
  IsDigit (octet.toNat / 16) high ∧ IsDigit (octet.toNat % 16) low

/-- The characters are a sign and the one digit of the octet. -/
def DenotesSigned (high low : Char) (octet : UInt8) : Prop :=
  high = '+' ∧ IsDigit octet.toNat low

/-- What two characters are read as: the octet of which they are the digits, or that of one digit
behind a sign. -/
def IsReadAs (high low : Char) (octet : UInt8) : Prop :=
  DenotesOctet high low octet ∨ DenotesSigned high low octet

/-- The octets of a text in a single pass from the left. What two characters behind `\x` denote
stands for the octet, where they denote one; every other character is copied. -/
inductive Unescapes (denotes : Char → Char → UInt8 → Prop) : List Char → Octets → Prop where
  | nil : Unescapes denotes [] []
  | escape {high low : Char} {octet : UInt8} {rest : List Char} {octets : Octets}
      (hoctet : denotes high low octet) (hrest : Unescapes denotes rest octets) :
      Unescapes denotes ('\\' :: 'x' :: high :: low :: rest) (octet :: octets)
  | copy {c : Char} {rest : List Char} {octets : Octets}
      (hnone : ∀ high low behind octet, c :: rest = '\\' :: 'x' :: high :: low :: behind →
        ¬denotes high low octet)
      (hrest : Unescapes denotes rest octets) :
      Unescapes denotes (c :: rest) (encode [c] ++ octets)

/-- A sign and a digit stand behind some `\x`. -/
def HasSignedEscape (value : List Char) : Prop :=
  ∃ n digit, IsDigit n digit ∧ ['\\', 'x', '+', digit] <:+: value

variable {value rest : List Char} {octets octets' : Octets} {octet : UInt8} {c high low : Char}
  {denotes : Char → Char → UInt8 → Prop}

/-! ## Digits -/

theorem toNat_ofNat_digits {h l : Nat} (hh : h < 16) (hl : l < 16) :
    (UInt8.ofNat (h * 16 + l)).toNat = h * 16 + l :=
  toNat_ofNat_of_lt (by omega)

/-- Which octet two characters denote. -/
theorem octet?_eq_some_iff :
    octet? high low = some octet ↔ IsReadAs high low octet := by
  constructor
  · intro h
    rw [octet?] at h
    split at h
    · next hi lo hhigh hlow =>
      have hhigh := isDigit_of_digitValue? hhigh
      have hlow := isDigit_of_digitValue? hlow
      have hvalue := toNat_ofNat_digits (lt_of_isDigit hhigh) (lt_of_isDigit hlow)
      obtain rfl := Option.some.inj h
      have hlt := lt_of_isDigit hlow
      refine .inl ⟨?_, ?_⟩
      · rw [hvalue, show (hi * 16 + lo) / 16 = hi by omega]
        exact hhigh
      · rw [hvalue, show (hi * 16 + lo) % 16 = lo by omega]
        exact hlow
    · next lo hhigh hlow =>
      split at h
      · next hplus =>
        have hlow := isDigit_of_digitValue? hlow
        have hlt := lt_of_isDigit hlow
        obtain rfl := Option.some.inj h
        refine .inr ⟨hplus, ?_⟩
        rwa [toNat_ofNat_of_lt (by omega)]
      · contradiction
    · contradiction
  · rintro (⟨hhigh, hlow⟩ | ⟨rfl, hlow⟩)
    · exact octet?_of_isDigit hhigh hlow
    · have hplus : digitValue? '+' = none := rfl
      simp only [octet?, hplus, digitValue?_of_isDigit hlow, ↓reduceIte, UInt8.ofNat_toNat]

/-- Two characters are the digits of one octet at most. -/
theorem DenotesOctet.unique {octet' : UInt8} (h : DenotesOctet high low octet)
    (h' : DenotesOctet high low octet') : octet = octet' := by
  have hoctet := octet?_eq_some_iff.2 (.inl h)
  have hoctet' := octet?_eq_some_iff.2 (.inl h')
  exact Option.some.inj (hoctet.symm.trans hoctet')

/-! ## The pass from the left -/

/-- There is a pass over every text, whatever two characters denote. -/
theorem exists_unescapes (denotes : Char → Char → UInt8 → Prop) (value : List Char) :
    ∃ octets, Unescapes denotes value octets := by
  -- An escape takes four characters at once, so the induction is on the length.
  induction hlength : value.length using Nat.strongRecOn generalizing value with
  | _ n ih =>
    subst hlength
    cases value with
    | nil => exact ⟨[], .nil⟩
    | cons c rest =>
      by_cases hescape : ∃ high low behind octet, c :: rest = '\\' :: 'x' :: high :: low :: behind ∧
          denotes high low octet
      · obtain ⟨high, low, behind, octet, heq, hoctet⟩ := hescape
        obtain ⟨octets, hrest⟩ := ih behind.length (by rw [heq]; simp; omega) behind rfl
        exact ⟨octet :: octets, heq ▸ .escape hoctet hrest⟩
      · obtain ⟨octets, hrest⟩ := ih rest.length (Nat.lt_succ_self _) rest rfl
        exact ⟨_, .copy (fun high low behind octet heq hoctet =>
          hescape ⟨high, low, behind, octet, heq, hoctet⟩) hrest⟩

theorem Unescapes.unique (h : Unescapes denotes value octets) (h' : Unescapes denotes value octets')
    (hunique : ∀ high low octet octet', denotes high low octet → denotes high low octet' →
      octet = octet') : octets = octets' := by
  induction h generalizing octets' with
  | nil =>
    cases h'
    rfl
  | escape hoctet _ ih =>
    cases h' with
    | escape hoctet' hrest' => rw [hunique _ _ _ _ hoctet hoctet', ih hrest']
    | copy hnone => exact absurd hoctet (hnone _ _ _ _ rfl)
  | copy hnone _ ih =>
    cases h' with
    | escape hoctet' => exact absurd hoctet' (hnone _ _ _ _ rfl)
    | copy _ hrest' => rw [ih hrest']

theorem Unescapes.copy_of_ne (hc : c ≠ '\\') (hrest : Unescapes denotes rest octets) :
    Unescapes denotes (c :: rest) (encode [c] ++ octets) :=
  .copy (fun _ _ _ _ h => absurd (List.cons.inj h).1 hc) hrest

/-- The pass is what is computed, with a sign taken for a digit. -/
theorem unescapes_decode (value : List Char) :
    Unescapes IsReadAs value (decode value) := by
  fun_induction decode value with
  | case1 => exact .nil
  | case2 high low rest octet hoctet ih => exact .escape (octet?_eq_some_iff.1 hoctet) ih
  | case3 high low rest hnone ih =>
    have hbehind : Unescapes IsReadAs ('x' :: high :: low :: rest)
        (encode ['x'] ++ decode (high :: low :: rest)) := .copy_of_ne (by decide) ih
    refine .copy (fun high' low' behind octet h hoctet => ?_) hbehind
    obtain ⟨rfl, rfl, rfl⟩ : high = high' ∧ low = low' ∧ rest = behind := by simpa using h
    rw [octet?_eq_some_iff.2 hoctet] at hnone
    contradiction
  | case4 c rest hno ih =>
    refine .copy (fun high low behind _ h _ => ?_) ih
    obtain ⟨hc, hrest⟩ := List.cons.inj h
    exact hno high low behind hc hrest

/-! ## Signs -/

theorem HasSignedEscape.append (front : List Char) (h : HasSignedEscape value) :
    HasSignedEscape (front ++ value) := by
  obtain ⟨n, digit, hdigit, hinfix⟩ := h
  exact ⟨n, digit, hdigit, hinfix.trans (List.suffix_append front value).isInfix⟩

theorem hasSignedEscape_of_denotesSigned (h : DenotesSigned high low octet) (rest : List Char) :
    HasSignedEscape ('\\' :: 'x' :: high :: low :: rest) := by
  obtain ⟨rfl, hlow⟩ := h
  exact ⟨octet.toNat, low, hlow, (List.prefix_append ['\\', 'x', '+', low] rest).isInfix⟩

/-- Where a sign and a digit stand behind some `\x`, they stand at the beginning or further on. -/
theorem exists_of_hasSignedEscape_cons (h : HasSignedEscape (c :: rest)) :
    (∃ low behind octet, c :: rest = '\\' :: 'x' :: '+' :: low :: behind ∧
      DenotesSigned '+' low octet) ∨ HasSignedEscape rest := by
  obtain ⟨n, digit, hdigit, hinfix⟩ := h
  rcases List.infix_cons_iff.1 hinfix with ⟨behind, hbehind⟩ | hinfix
  · have hlt := lt_of_isDigit hdigit
    have hn : (UInt8.ofNat n).toNat = n := toNat_ofNat_of_lt (by omega)
    exact .inl ⟨digit, behind, UInt8.ofNat n, hbehind.symm, rfl, hn.symm ▸ hdigit⟩
  · exact .inr ⟨n, digit, hdigit, hinfix⟩

theorem HasSignedEscape.of_cons_ne (hc : c ≠ '\\') (h : HasSignedEscape (c :: rest)) :
    HasSignedEscape rest :=
  (exists_of_hasSignedEscape_cons h).resolve_left fun ⟨_, _, _, heq, _⟩ => hc (List.cons.inj heq).1

theorem ne_backslash_of_isDigit {n : Nat} (h : IsDigit n c) : c ≠ '\\' := fun hc =>
  not_mustEscape_of_isDigit h (.inr (.inl hc))

/-- A digit is no sign, and no `\x` begins within an escape. -/
theorem hasSignedEscape_of_escape (h : DenotesOctet high low octet)
    (hsigned : HasSignedEscape ('\\' :: 'x' :: high :: low :: rest)) : HasSignedEscape rest := by
  rcases exists_of_hasSignedEscape_cons hsigned with ⟨low', behind, octet', heq, -⟩ | hsigned
  · obtain rfl : high = '+' := by simp_all
    exact absurd h.1 (not_isDigit_plus _)
  · exact ((hsigned.of_cons_ne (by decide)).of_cons_ne (ne_backslash_of_isDigit h.1)).of_cons_ne
      (ne_backslash_of_isDigit h.2)

theorem Unescapes.exists_copy (h : Unescapes denotes (c :: rest) octets) (hc : c ≠ '\\') :
    ∃ octets', octets = encode [c] ++ octets' ∧ Unescapes denotes rest octets' := by
  cases h with
  | escape => exact absurd rfl hc
  | copy _ hrest => exact ⟨_, rfl, hrest⟩

theorem length_encode_pos (c : Char) : 0 < (encode [c]).length := by
  simpa [encode] using c.utf8Size_pos

/-- Where a sign is read as the first digit, fewer octets are read than there are otherwise. -/
theorem Unescapes.length_le
    (h : Unescapes IsReadAs value octets) (h' : Unescapes DenotesOctet value octets') :
    octets.length ≤ octets'.length ∧ (HasSignedEscape value → octets.length < octets'.length) := by
  induction h generalizing octets' with
  | nil =>
    refine ⟨Nat.zero_le _, ?_⟩
    rintro ⟨n, digit, -, hinfix⟩
    exact absurd (List.infix_nil.1 hinfix) (List.cons_ne_nil _ _)
  | @escape high low octet rest octets hoctet _ ih =>
    rcases hoctet with hoctet | hsigned
    · cases h' with
      | escape _ hrest' =>
        obtain ⟨hle, hlt⟩ := ih hrest'
        exact ⟨Nat.succ_le_succ hle, fun hsigned =>
          Nat.succ_lt_succ (hlt (hasSignedEscape_of_escape hoctet hsigned))⟩
      | copy hnone => exact absurd hoctet (hnone _ _ _ _ rfl)
    · -- The four characters of such an escape are copied otherwise, instead of one octet.
      suffices hlt : (octet :: octets).length < octets'.length from
        ⟨Nat.le_of_lt hlt, fun _ => hlt⟩
      obtain ⟨rfl, hlow⟩ := hsigned
      cases h' with
      | escape hoctet' => exact absurd hoctet'.1 (not_isDigit_plus _)
      | copy _ hrest' =>
        obtain ⟨octets₁, rfl, hsign⟩ := hrest'.exists_copy (by decide)
        obtain ⟨octets₂, rfl, hdigit⟩ := hsign.exists_copy (by decide)
        obtain ⟨octets₃, rfl, hbehind⟩ := hdigit.exists_copy (ne_backslash_of_isDigit hlow)
        have hle := (ih hbehind).1
        have hfirst := length_encode_pos '\\'
        have hlast := length_encode_pos low
        simp only [List.length_append, List.length_cons]
        omega
  | @copy c rest octets hnone _ ih =>
    cases h' with
    | escape hoctet' => exact absurd (.inl hoctet') (hnone _ _ _ _ rfl)
    | copy _ hrest' =>
      obtain ⟨hle, hlt⟩ := ih hrest'
      simp only [List.length_append]
      refine ⟨by omega, fun hsigned => ?_⟩
      rcases exists_of_hasSignedEscape_cons hsigned with ⟨low, behind, octet, heq, hoctet⟩ | hsigned
      · exact absurd (.inr hoctet) (hnone _ _ _ _ heq)
      · have := hlt hsigned
        omega

/-- Without a sign behind some `\x`, the pass that takes signs for digits is the one that does
not. -/
theorem Unescapes.of_not_hasSignedEscape
    (h : Unescapes IsReadAs value octets) (hsigned : ¬HasSignedEscape value) :
    Unescapes DenotesOctet value octets := by
  induction h with
  | nil => exact .nil
  | @escape high low octet rest octets hoctet _ ih =>
    have hoctet := hoctet.resolve_right fun hoctet =>
      hsigned (hasSignedEscape_of_denotesSigned hoctet rest)
    exact .escape hoctet (ih fun h => hsigned (h.append ['\\', 'x', high, low]))
  | @copy c rest octets hnone _ ih =>
    refine .copy (fun high low behind octet heq hoctet => ?_) (ih fun h => hsigned (h.append [c]))
    exact hnone high low behind octet heq (.inl hoctet)

/-- The computed pass is the one over escapes of two digits just on texts without a sign behind
some `\x`. -/
theorem unescapes_decode_iff (value : List Char) :
    Unescapes DenotesOctet value (decode value) ↔ ¬HasSignedEscape value :=
  ⟨fun h hsigned => Nat.lt_irrefl _ (((unescapes_decode value).length_le h).2 hsigned),
    (unescapes_decode value).of_not_hasSignedEscape⟩

end HexEscape

end BtrfsTopology
