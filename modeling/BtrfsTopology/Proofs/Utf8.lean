import BtrfsTopology.Text.Utf8
import Mathlib.Tactic.Common

/-!
# UTF-8 is read back

The octets of a text denote that text, and no other octets denote one. A character is written in one
to four octets: a first one that says how many follow, and continuations that carry six bits each.
The range that the first octet sets for the second admits exactly the second octets that are
written, because a character is neither a surrogate nor written longer than it must be.

## Main results

* `Utf8.piecesFrom_utf8EncodeChar` — the octets of a character are one piece
* `Utf8.decode_encode` — reading undoes writing
* `Utf8.decode_eq_ok_iff` — octets can be read just if they are those of a text
-/

namespace BtrfsTopology.Utf8

/-! ## Single octets -/

theorem toNat_ofNat_of_lt {n : Nat} (h : n < 256) : (UInt8.ofNat n).toNat = n := by
  rw [UInt8.toNat_ofNat']
  exact Nat.mod_eq_of_lt h

/-- An octet below `0x80` is a character. -/
theorem Lead.ofOctet_whole {n : Nat} (h : n < 0x80) :
    Lead.ofOctet (UInt8.ofNat n) = .whole (Char.ofNat n) := by
  simp only [Lead.ofOctet, toNat_ofNat_of_lt (by omega : n < 256), h, ↓reduceIte]

/-- The first octet of two. The characters below `0x80` take one, so it carries at least two. -/
theorem Lead.ofOctet_of_two {k : Nat} (hlow : 2 ≤ k) (hhigh : k < 32) :
    Lead.ofOctet (UInt8.ofNat (k + 192)) = .opening ⟨0, 0x80, 0xBF, k, 1⟩ := by
  have h₁ : ¬k + 192 < 0x80 := by omega
  have h₂ : ¬k + 192 < 0xC2 := by omega
  have h₃ : k + 192 < 0xE0 := by omega
  simp only [Lead.ofOctet, toNat_ofNat_of_lt (by omega : k + 192 < 256), h₁, h₂, h₃, ↓reduceIte,
    Nat.add_sub_cancel]

/-- The first octet of three. -/
theorem Lead.ofOctet_of_three {k : Nat} (hhigh : k < 16) :
    Lead.ofOctet (UInt8.ofNat (k + 224)) =
      .opening ⟨1, if k = 0 then 0xA0 else 0x80, if k = 13 then 0x9F else 0xBF, k, 1⟩ := by
  have h₁ : ¬k + 224 < 0x80 := by omega
  have h₂ : ¬k + 224 < 0xC2 := by omega
  have h₃ : ¬k + 224 < 0xE0 := by omega
  have h₄ : k + 224 < 0xF0 := by omega
  have h₅ : k + 224 = 0xED ↔ k = 13 := by omega
  simp only [Lead.ofOctet, toNat_ofNat_of_lt (by omega : k + 224 < 256), h₁, h₂, h₃, h₄, h₅,
    ↓reduceIte, Nat.add_sub_cancel, Nat.add_eq_right]

/-- The first octet of four. -/
theorem Lead.ofOctet_of_four {k : Nat} (hhigh : k < 5) :
    Lead.ofOctet (UInt8.ofNat (k + 240)) =
      .opening ⟨2, if k = 0 then 0x90 else 0x80, if k = 4 then 0x8F else 0xBF, k, 1⟩ := by
  have h₁ : ¬k + 240 < 0x80 := by omega
  have h₂ : ¬k + 240 < 0xC2 := by omega
  have h₃ : ¬k + 240 < 0xE0 := by omega
  have h₄ : ¬k + 240 < 0xF0 := by omega
  have h₅ : k + 240 < 0xF5 := by omega
  have h₆ : k + 240 = 0xF4 ↔ k = 4 := by omega
  simp only [Lead.ofOctet, toNat_ofNat_of_lt (by omega : k + 240 < 256), h₁, h₂, h₃, h₄, h₅, h₆,
    ↓reduceIte, Nat.add_sub_cancel, Nat.add_eq_right]

theorem Pending.bitsWith_continuation (p : Pending) {k : Nat} (hk : k < 64) :
    p.bitsWith (UInt8.ofNat (k + 128)) = p.bits * 64 + k := by
  have hoctet : k + 128 < 256 := by omega
  unfold Pending.bitsWith
  rw [toNat_ofNat_of_lt hoctet]
  simp

section Continuation

variable {p : Pending} {k : Nat} (hlow : p.low ≤ k + 128) (hhigh : k + 128 ≤ p.high) (hk : k < 64)
include hlow hhigh hk

theorem Pending.admits_continuation : p.admits (UInt8.ofNat (k + 128)) = true := by
  simp only [Pending.admits, toNat_ofNat_of_lt (by omega : k + 128 < 256), hlow, hhigh,
    decide_true, Bool.and_self]

/-- A continuation that the character under way still needs adds its six bits. -/
theorem piecesFrom_continuation {more : Nat} (hmore : p.more = more + 1) (rest : Octets) :
    piecesFrom (some p) (UInt8.ofNat (k + 128) :: rest) =
      piecesFrom (some ⟨more, 0x80, 0xBF, p.bits * 64 + k, p.taken + 1⟩) rest := by
  rw [piecesFrom, if_pos (Pending.admits_continuation hlow hhigh hk), Pending.extend, hmore]
  simp only [Pending.bitsWith_continuation p hk]

/-- The last continuation completes the character. -/
theorem piecesFrom_last (hmore : p.more = 0) (rest : Octets) :
    piecesFrom (some p) (UInt8.ofNat (k + 128) :: rest) =
      .char (Char.ofNat (p.bits * 64 + k)) :: piecesFrom none rest := by
  rw [piecesFrom, if_pos (Pending.admits_continuation hlow hhigh hk), Pending.extend, hmore]
  simp only [Pending.bitsWith_continuation p hk]

end Continuation

/-! ## Characters -/

/-- A character is no surrogate and at most `U+10FFFF`. -/
theorem toNat_valid (c : Char) :
    c.val.toNat < 0xD800 ∨ 0xDFFF < c.val.toNat ∧ c.val.toNat < 0x110000 :=
  c.valid

/-- The octets of a character are one piece. -/
theorem piecesFrom_utf8EncodeChar (c : Char) (rest : Octets) :
    piecesFrom none (String.utf8EncodeChar c ++ rest) = .char c :: piecesFrom none rest := by
  have hvalid := toNat_valid c
  have hchar : Char.ofNat c.val.toNat = c := Char.ofNat_toNat c
  rw [String.utf8EncodeChar]
  generalize c.val.toNat = v at hvalid hchar ⊢
  -- One, two, three and four octets: put together, their bits are those of the character.
  split_ifs with h₁ h₂ h₃
  · rw [List.cons_append, List.nil_append, piecesFrom, Lead.ofOctet_whole (by omega), hchar]
  · have hbits : v / 64 % 32 * 64 + v % 64 = v := by omega
    rw [List.cons_append, piecesFrom, Lead.ofOctet_of_two (by omega) (by omega)]
    simp only [List.cons_append, List.nil_append]
    rw [piecesFrom_last (by simp) (by simp; omega) (by omega) rfl, hbits, hchar]
  · -- The second octet is in its range as the character is no surrogate and takes three octets.
    have hbits : (v / 4096 % 16 * 64 + v / 64 % 64) * 64 + v % 64 = v := by omega
    rw [List.cons_append, piecesFrom, Lead.ofOctet_of_three (by omega)]
    simp only [List.cons_append, List.nil_append]
    rw [piecesFrom_continuation (by dsimp only; split <;> omega) (by dsimp only; split <;> omega)
      (by omega) rfl,
      piecesFrom_last (by simp) (by simp; omega) (by omega) rfl, hbits, hchar]
  · have hbits : ((v / 262144 % 8 * 64 + v / 4096 % 64) * 64 + v / 64 % 64) * 64 + v % 64 = v := by
      omega
    rw [List.cons_append, piecesFrom, Lead.ofOctet_of_four (by omega)]
    simp only [List.cons_append, List.nil_append]
    rw [piecesFrom_continuation (by dsimp only; split <;> omega) (by dsimp only; split <;> omega)
      (by omega) rfl,
      piecesFrom_continuation (by simp) (by simp; omega) (by omega) rfl,
      piecesFrom_last (by simp) (by simp; omega) (by omega) rfl, hbits, hchar]

theorem encode_append (front behind : List Char) :
    encode (front ++ behind) = encode front ++ encode behind :=
  List.flatMap_append

/-- The octets of a text are as many pieces as it has characters. -/
theorem pieces_encode (s : List Char) : pieces (encode s) = s.map .char := by
  induction s with
  | nil => rfl
  | cons c rest ih =>
    rw [encode, List.flatMap_cons, pieces, piecesFrom_utf8EncodeChar]
    exact congrArg _ ih

theorem textOfPieces_map_char (index : Nat) (s : List Char) :
    textOfPieces index (s.map .char) = .ok s := by
  induction s generalizing index with
  | nil => rfl
  | cons c rest ih => simp only [List.map_cons, textOfPieces, ih]

/-- Reading undoes writing. -/
theorem decode_encode (s : List Char) : decode (encode s) = .ok s := by
  rw [decode, pieces_encode, textOfPieces_map_char]

/-! ## Octets that denote a text -/

section Inversion

variable {p : Pending} {octets rest : Octets} {pieces : List Piece} {index : Nat} {s : List Char}
  {c : Char}

theorem exists_of_textOfPieces_char (h : textOfPieces index (.char c :: pieces) = .ok s) :
    ∃ s' index', s = c :: s' ∧ textOfPieces index' pieces = .ok s' := by
  rw [textOfPieces] at h
  split at h
  · next s' hs' => exact ⟨s', _, (Except.ok.inj h).symm, hs'⟩
  · contradiction

/-- A character under way goes on with an octet that it admits. -/
theorem exists_of_textOfPieces_pending
    (h : textOfPieces index (piecesFrom (some p) octets) = .ok s) :
    ∃ octet rest, octets = octet :: rest ∧ p.low ≤ octet.toNat ∧ octet.toNat ≤ p.high ∧
      ((∃ s' index', p.more = 0 ∧ s = Char.ofNat (p.bitsWith octet) :: s' ∧
          textOfPieces index' (piecesFrom none rest) = .ok s') ∨
        ∃ more, p.more = more + 1 ∧
          textOfPieces index (piecesFrom
            (some ⟨more, 0x80, 0xBF, p.bitsWith octet, p.taken + 1⟩) rest) = .ok s) := by
  cases octets with
  | nil => simp [piecesFrom, textOfPieces] at h
  | cons octet rest =>
    rw [piecesFrom] at h
    by_cases hadmits : p.admits octet = true
    · obtain ⟨hlow, hhigh⟩ : p.low ≤ octet.toNat ∧ octet.toNat ≤ p.high := by
        simpa [Pending.admits] using hadmits
      refine ⟨octet, rest, rfl, hlow, hhigh, ?_⟩
      rw [if_pos hadmits, Pending.extend] at h
      cases hmore : p.more with
      | zero =>
        rw [hmore] at h
        obtain ⟨s', index', hs, hs'⟩ := exists_of_textOfPieces_char h
        exact .inl ⟨s', index', rfl, hs, hs'⟩
      | succ more =>
        rw [hmore] at h
        exact .inr ⟨more, rfl, h⟩
    · rw [if_neg hadmits, textOfPieces] at h
      contradiction

end Inversion

theorem toNat_val_ofNat {v : Nat} (h : v < 0xD800 ∨ 0xDFFF < v ∧ v < 0x110000) :
    (Char.ofNat v).val.toNat = v := by
  rw [Char.ofNat, dif_pos h]
  rfl

theorem ofNat_eq_of_toNat {n : Nat} (octet : UInt8) (h : n = octet.toNat) :
    UInt8.ofNat n = octet := by
  rw [h, UInt8.ofNat_toNat]

section Encoded

variable {v : Nat} {b₁ b₂ b₃ b₄ : UInt8}

theorem utf8EncodeChar_of_one (h : b₁.toNat < 0x80) :
    String.utf8EncodeChar (Char.ofNat b₁.toNat) = [b₁] := by
  rw [String.utf8EncodeChar, toNat_val_ofNat (by omega)]
  simp only [show b₁.toNat ≤ 0x7F by omega, ↓reduceIte, UInt8.ofNat_toNat]

theorem utf8EncodeChar_of_two (h₁ : 0xC2 ≤ b₁.toNat) (h₁' : b₁.toNat < 0xE0)
    (h₂ : 0x80 ≤ b₂.toNat) (h₂' : b₂.toNat ≤ 0xBF)
    (hv : v = (b₁.toNat - 0xC0) * 64 + (b₂.toNat - 0x80)) :
    String.utf8EncodeChar (Char.ofNat v) = [b₁, b₂] := by
  rw [String.utf8EncodeChar, toNat_val_ofNat (by omega)]
  simp only [show ¬v ≤ 0x7F by omega, show v ≤ 0x7FF by omega, ↓reduceIte]
  rw [ofNat_eq_of_toNat b₁ (by omega), ofNat_eq_of_toNat b₂ (by omega)]

theorem utf8EncodeChar_of_three (h₁ : 0xE0 ≤ b₁.toNat) (h₁' : b₁.toNat < 0xF0)
    (h₂ : (if b₁.toNat = 0xE0 then 0xA0 else 0x80) ≤ b₂.toNat)
    (h₂' : b₂.toNat ≤ if b₁.toNat = 0xED then 0x9F else 0xBF)
    (h₃ : 0x80 ≤ b₃.toNat) (h₃' : b₃.toNat ≤ 0xBF)
    (hv : v = ((b₁.toNat - 0xE0) * 64 + (b₂.toNat - 0x80)) * 64 + (b₃.toNat - 0x80)) :
    String.utf8EncodeChar (Char.ofNat v) = [b₁, b₂, b₃] := by
  have hrange : 0x80 ≤ b₂.toNat ∧ b₂.toNat ≤ 0xBF ∧ (b₁.toNat = 0xE0 → 0xA0 ≤ b₂.toNat) ∧
      (b₁.toNat = 0xED → b₂.toNat ≤ 0x9F) := by split at h₂ <;> split at h₂' <;> omega
  rw [String.utf8EncodeChar, toNat_val_ofNat (by omega)]
  simp only [show ¬v ≤ 0x7F by omega, show ¬v ≤ 0x7FF by omega, show v ≤ 0xFFFF by omega,
    ↓reduceIte]
  rw [ofNat_eq_of_toNat b₁ (by omega), ofNat_eq_of_toNat b₂ (by omega),
    ofNat_eq_of_toNat b₃ (by omega)]

theorem utf8EncodeChar_of_four (h₁ : 0xF0 ≤ b₁.toNat) (h₁' : b₁.toNat < 0xF5)
    (h₂ : (if b₁.toNat = 0xF0 then 0x90 else 0x80) ≤ b₂.toNat)
    (h₂' : b₂.toNat ≤ if b₁.toNat = 0xF4 then 0x8F else 0xBF)
    (h₃ : 0x80 ≤ b₃.toNat) (h₃' : b₃.toNat ≤ 0xBF) (h₄ : 0x80 ≤ b₄.toNat) (h₄' : b₄.toNat ≤ 0xBF)
    (hv : v = (((b₁.toNat - 0xF0) * 64 + (b₂.toNat - 0x80)) * 64 + (b₃.toNat - 0x80)) * 64 +
      (b₄.toNat - 0x80)) :
    String.utf8EncodeChar (Char.ofNat v) = [b₁, b₂, b₃, b₄] := by
  have hrange : 0x80 ≤ b₂.toNat ∧ b₂.toNat ≤ 0xBF ∧ (b₁.toNat = 0xF0 → 0x90 ≤ b₂.toNat) ∧
      (b₁.toNat = 0xF4 → b₂.toNat ≤ 0x8F) := by split at h₂ <;> split at h₂' <;> omega
  rw [String.utf8EncodeChar, toNat_val_ofNat (by omega)]
  simp only [show ¬v ≤ 0x7F by omega, show ¬v ≤ 0x7FF by omega, show ¬v ≤ 0xFFFF by omega,
    ↓reduceIte]
  rw [ofNat_eq_of_toNat b₁ (by omega), ofNat_eq_of_toNat b₂ (by omega),
    ofNat_eq_of_toNat b₃ (by omega), ofNat_eq_of_toNat b₄ (by omega)]

end Encoded

/-- Octets that can be read begin with those of a character, if there are any. -/
theorem exists_of_textOfPieces {octet : UInt8} {octets : Octets} {index : Nat} {s : List Char}
    (h : textOfPieces index (piecesFrom none (octet :: octets)) = .ok s) :
    ∃ c rest s' index', octet :: octets = String.utf8EncodeChar c ++ rest ∧ s = c :: s' ∧
      textOfPieces index' (piecesFrom none rest) = .ok s' := by
  rw [piecesFrom, Lead.ofOctet] at h
  by_cases hone : octet.toNat < 0x80
  · rw [if_pos hone] at h
    obtain ⟨s', index', hs, hs'⟩ := exists_of_textOfPieces_char h
    exact ⟨_, octets, s', index', congrArg (· ++ octets) (utf8EncodeChar_of_one hone).symm, hs, hs'⟩
  by_cases hnone : octet.toNat < 0xC2
  · rw [if_neg hone, if_pos hnone] at h
    contradiction
  by_cases htwo : octet.toNat < 0xE0
  · rw [if_neg hone, if_neg hnone, if_pos htwo] at h
    obtain ⟨b₂, rest, rfl, h₂, h₂', ⟨s', index', -, hs, hs'⟩ | ⟨more, hmore, -⟩⟩ :=
      exists_of_textOfPieces_pending h
    · have hc := utf8EncodeChar_of_two (by omega) htwo h₂ h₂' rfl
      exact ⟨_, rest, s', index', congrArg (· ++ rest) hc.symm, hs, hs'⟩
    · contradiction
  by_cases hthree : octet.toNat < 0xF0
  · rw [if_neg hone, if_neg hnone, if_neg htwo, if_pos hthree] at h
    obtain ⟨b₂, rest, rfl, h₂, h₂', ⟨_, _, hmore, -⟩ | ⟨more, hmore, h⟩⟩ :=
      exists_of_textOfPieces_pending h
    · contradiction
    obtain rfl : 0 = more := Nat.succ.inj hmore
    obtain ⟨b₃, rest, rfl, h₃, h₃', ⟨s', index', -, hs, hs'⟩ | ⟨more, hmore, -⟩⟩ :=
      exists_of_textOfPieces_pending h
    · have hc := utf8EncodeChar_of_three (by omega) hthree h₂ h₂' h₃ h₃' rfl
      exact ⟨_, rest, s', index', congrArg (· ++ rest) hc.symm, hs, hs'⟩
    · contradiction
  by_cases hfour : octet.toNat < 0xF5
  · rw [if_neg hone, if_neg hnone, if_neg htwo, if_neg hthree, if_pos hfour] at h
    obtain ⟨b₂, rest, rfl, h₂, h₂', ⟨_, _, hmore, -⟩ | ⟨more, hmore, h⟩⟩ :=
      exists_of_textOfPieces_pending h
    · contradiction
    obtain rfl : 1 = more := Nat.succ.inj hmore
    obtain ⟨b₃, rest, rfl, h₃, h₃', ⟨_, _, hmore, -⟩ | ⟨more, hmore, h⟩⟩ :=
      exists_of_textOfPieces_pending h
    · contradiction
    obtain rfl : 0 = more := Nat.succ.inj hmore
    obtain ⟨b₄, rest, rfl, h₄, h₄', ⟨s', index', -, hs, hs'⟩ | ⟨more, hmore, -⟩⟩ :=
      exists_of_textOfPieces_pending h
    · have hc := utf8EncodeChar_of_four (by omega) hfour h₂ h₂' h₃ h₃' h₄ h₄' rfl
      exact ⟨_, rest, s', index', congrArg (· ++ rest) hc.symm, hs, hs'⟩
    · contradiction
  · rw [if_neg hone, if_neg hnone, if_neg htwo, if_neg hthree, if_neg hfour] at h
    contradiction

/-- Octets that can be read are those of the text that they are read as. -/
theorem eq_encode_of_textOfPieces {octets : Octets} {index : Nat} {s : List Char}
    (h : textOfPieces index (piecesFrom none octets) = .ok s) : octets = encode s := by
  induction s generalizing octets index with
  | nil =>
    cases octets with
    | nil => rfl
    | cons octet octets =>
      obtain ⟨c, rest, s', index', -, hs, -⟩ := exists_of_textOfPieces h
      contradiction
  | cons c s ih =>
    cases octets with
    | nil => exact absurd (Except.ok.inj h) (List.cons_ne_nil c s).symm
    | cons octet octets =>
      obtain ⟨c', rest, s', index', hoctets, hs, hrest⟩ := exists_of_textOfPieces h
      obtain ⟨rfl, rfl⟩ := List.cons.inj hs
      rw [hoctets, ih hrest]
      rfl

/-- Octets denote a text just if they are its own. -/
theorem decode_eq_ok_iff {octets : Octets} {s : List Char} :
    decode octets = .ok s ↔ octets = encode s :=
  ⟨eq_encode_of_textOfPieces, fun h => h ▸ decode_encode s⟩

end BtrfsTopology.Utf8
