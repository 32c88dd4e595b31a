import BtrfsTopology.Proofs.EscapeGrammar
import BtrfsTopology.Proofs.MountListing

/-!
# Unescaping by search

A text can be unescaped from one `\x` to the next. The mark is searched for, the octets in front of
it are copied, and of what is behind it the first two octets are tried as an escape. All places are
counted in octets, while a text can only be cut between two of its characters. That works out: the
mark begins and ends between characters, and two octets that are the digits of an escape are two
characters. Two octets that are not may be part of one, and then they are not cut off.

So the search comes to the same octets as reading character by character, and these are checked to
be UTF-8 once per value of a line.

## Main definitions

* `HexEscape.cutAt?` — a text in front of an octet index and behind it
* `HexEscape.decodeBySearch?` — unescaping from mark to mark, none where a cut fails
* `Listing.ComesTo` — the values that are unescaped while the pairs of a text are read

## Main results

* `HexEscape.decodeBySearch?_eq` — no cut fails, and the octets are the same
* `Listing.readMount_of_comesTo` — a line is in error where one of its values is
* `Listing.readValue_unless_signed` — which octets a value has, and what is read
-/

namespace BtrfsTopology

namespace HexEscape

open Utf8

/-! ## Octet indices -/

/-- How many octets a text has. -/
def octetCount (s : List Char) : Nat :=
  (encode s).length

/-- The text in front of an octet index and behind it; none where the index is inside a character
or past the end. -/
def cutAt? : Nat → List Char → Option (List Char × List Char)
  | 0, s => some ([], s)
  | _ + 1, [] => none
  | n + 1, c :: rest =>
    if c.utf8Size ≤ n + 1 then
      (cutAt? (n + 1 - c.utf8Size) rest).map fun (front, behind) => (c :: front, behind)
    else none

/-- The octet index of the first `\x`. -/
def indexOfMark? : List Char → Option Nat
  | [] => none
  | '\\' :: 'x' :: _ => some 0
  | c :: rest => (indexOfMark? rest).map (c.utf8Size + ·)

/-- The octet that a text of two characters denotes. -/
def octetOf? : List Char → Option UInt8
  | [high, low] => octet? high low
  | _ => none

@[simp] theorem octetCount_cons (c : Char) (rest : List Char) :
    octetCount (c :: rest) = c.utf8Size + octetCount rest := by
  simp [octetCount, encode]

theorem octetCount_append (front behind : List Char) :
    octetCount (front ++ behind) = octetCount front + octetCount behind := by
  simp [octetCount, encode]

@[simp] theorem cutAt?_zero (s : List Char) : cutAt? 0 s = some ([], s) := by
  cases s <;> rfl

/-- A text can be cut behind any of its characters. -/
theorem cutAt?_append (front behind : List Char) :
    cutAt? (octetCount front) (front ++ behind) = some (front, behind) := by
  induction front with
  | nil => exact cutAt?_zero behind
  | cons c front ih =>
    have hpos := c.utf8Size_pos
    obtain ⟨n, hn⟩ : ∃ n, c.utf8Size + octetCount front = n + 1 :=
      ⟨c.utf8Size + octetCount front - 1, by omega⟩
    rw [octetCount_cons, hn, List.cons_append, cutAt?, if_pos (by omega),
      show n + 1 - c.utf8Size = octetCount front by omega, ih]
    rfl

/-- A text is cut nowhere else. -/
theorem eq_of_cutAt? {n : Nat} {s front behind : List Char}
    (h : cutAt? n s = some (front, behind)) : s = front ++ behind ∧ n = octetCount front := by
  induction s generalizing n front with
  | nil =>
    cases n with
    | zero =>
      obtain ⟨rfl, rfl⟩ : [] = front ∧ [] = behind := by simpa [cutAt?] using h
      exact ⟨rfl, rfl⟩
    | succ n => contradiction
  | cons c rest ih =>
    cases n with
    | zero =>
      obtain ⟨rfl, rfl⟩ : [] = front ∧ c :: rest = behind := by simpa [cutAt?] using h
      exact ⟨rfl, rfl⟩
    | succ n =>
      rw [cutAt?] at h
      split at h
      · next hsize =>
        obtain ⟨⟨front', behind'⟩, hcut, heq⟩ := Option.map_eq_some_iff.1 h
        obtain ⟨rfl, rfl⟩ : c :: front' = front ∧ behind' = behind := by simpa using heq
        obtain ⟨rfl, hcount⟩ := ih hcut
        exact ⟨rfl, by rw [octetCount_cons]; omega⟩
      · contradiction

/-! ## From mark to mark -/

/-- Without a mark, all characters are copied; otherwise those in front of the first one are. -/
theorem decode_of_indexOfMark? (s : List Char) :
    match indexOfMark? s with
    | none => decode s = encode s
    | some index => ∃ front escaped, s = front ++ '\\' :: 'x' :: escaped ∧
        index = octetCount front ∧ decode s = encode front ++ decode ('\\' :: 'x' :: escaped) := by
  fun_induction indexOfMark? s with
  | case1 => rfl
  | case2 escaped => exact ⟨[], escaped, rfl, rfl, rfl⟩
  | case3 c rest hmark ih =>
    have hcopy : decode (c :: rest) = encode [c] ++ decode rest := by
      rw [decode]
      rintro high low behind rfl rfl
      exact hmark _ rfl rfl
    cases hindex : indexOfMark? rest with
    | none =>
      rw [hindex] at ih
      change decode (c :: rest) = encode ([c] ++ rest)
      rw [hcopy, ih, encode_append]
    | some index =>
      rw [hindex] at ih
      obtain ⟨front, escaped, rfl, rfl, hdecode⟩ := ih
      refine ⟨c :: front, escaped, rfl, (octetCount_cons c front).symm, ?_⟩
      rw [hcopy, hdecode, ← List.append_assoc, ← encode_append, List.singleton_append]

/-- Behind a mark there is an escape if the two characters there denote an octet. -/
theorem decode_mark (escaped : List Char) :
    decode ('\\' :: 'x' :: escaped) =
      match octetOf? (escaped.take 2) with
      | some octet => octet :: decode (escaped.drop 2)
      | none => encode ['\\', 'x'] ++ decode escaped := by
  match escaped with
  | [] => rfl
  | [c] => rfl
  | high :: low :: rest =>
    rw [decode]
    rfl

/-- A hexadecimal digit and a sign take one octet each. -/
theorem utf8Size_of_octet? {high low : Char} {octet : UInt8} (h : octet? high low = some octet) :
    high.utf8Size = 1 ∧ low.utf8Size = 1 := by
  have hdigit {n : Nat} {c : Char} (hc : IsDigit n c) : c.utf8Size = 1 :=
    hc.induction (P := fun _ c => c.utf8Size = 1) (by decide) (by decide)
  rcases octet?_eq_some_iff.1 h with ⟨hhigh, hlow⟩ | ⟨rfl, hlow⟩
  · exact ⟨hdigit hhigh, hdigit hlow⟩
  · exact ⟨rfl, hdigit hlow⟩

/-- The first two octets are an escape just if the first two characters are. -/
theorem octetOf?_of_cutAt? (escaped : List Char) :
    ((cutAt? 2 escaped).bind fun (hex, _) => octetOf? hex) = octetOf? (escaped.take 2) := by
  cases hoctet : octetOf? (escaped.take 2) with
  | some octet =>
    match escaped, hoctet with
    | high :: low :: rest, hoctet =>
      obtain ⟨hhigh, hlow⟩ := utf8Size_of_octet? hoctet
      have hcut := cutAt?_append [high, low] rest
      rw [octetCount_cons, octetCount_cons, hhigh, hlow] at hcut
      change (cutAt? 2 ([high, low] ++ rest)).bind _ = _
      rw [show 2 = 1 + (1 + octetCount []) from rfl, hcut]
      exact hoctet
  | none =>
    cases hcut : cutAt? 2 escaped with
    | none => rfl
    | some parts =>
      obtain ⟨hex, behind⟩ := parts
      obtain ⟨rfl, -⟩ := eq_of_cutAt? hcut
      -- Of the texts of two octets, only those of two characters could be an escape.
      match hex, hoctet with
      | [], _ => rfl
      | [_], _ => rfl
      | [_, _], hoctet => exact hoctet
      | _ :: _ :: _ :: _, _ => rfl

theorem length_lt_of_cutAt? {n : Nat} {s front behind : List Char}
    (h : cutAt? (n + 1) s = some (front, behind)) : behind.length < s.length := by
  obtain ⟨rfl, hcount⟩ := eq_of_cutAt? h
  have hne : front ≠ [] := by
    rintro rfl
    contradiction
  have := List.length_pos_iff.2 hne
  rw [List.length_append]
  omega

/-- The octets of a text that is unescaped from mark to mark. Where it cannot be cut at an octet
index, there are none, except that two octets that cannot be cut off are no escape. -/
def decodeBySearch? (s : List Char) : Option Octets :=
  match indexOfMark? s with
  | none => some (encode s)
  | some index =>
    match cutAt? index s, _hmark : cutAt? (index + 2) s with
    | some (front, _), some (_, escaped) =>
      match (cutAt? 2 escaped).bind fun (hex, _) => octetOf? hex with
      | some octet =>
        match _hhex : cutAt? 2 escaped with
        | some (_, behind) =>
          (decodeBySearch? behind).map fun octets => encode front ++ (octet :: octets)
        | none => none
      | none =>
        (decodeBySearch? escaped).map fun octets =>
          encode front ++ (encode ['\\', 'x'] ++ octets)
    | _, _ => none
termination_by s.length
decreasing_by
  · exact Nat.lt_trans (length_lt_of_cutAt? _hhex) (length_lt_of_cutAt? _hmark)
  · exact length_lt_of_cutAt? _hmark

/-- No cut fails, and the octets are those of reading character by character. -/
theorem decodeBySearch?_eq (s : List Char) : decodeBySearch? s = some (decode s) := by
  induction hlength : s.length using Nat.strongRecOn generalizing s with
  | _ n ih =>
    subst hlength
    have hmark := decode_of_indexOfMark? s
    rw [decodeBySearch?]
    split
    · next hindex =>
      rw [hindex] at hmark
      rw [hmark]
    · next index hindex =>
      rw [hindex] at hmark
      obtain ⟨front, escaped, rfl, rfl, hdecode⟩ := hmark
      -- The mark begins and ends between characters, so both cuts around it are possible.
      have hcutFront := cutAt?_append front ('\\' :: 'x' :: escaped)
      have hcutBehind : cutAt? (octetCount front + 2) (front ++ '\\' :: 'x' :: escaped) =
          some (front ++ ['\\', 'x'], escaped) := by
        have hcut := cutAt?_append (front ++ ['\\', 'x']) escaped
        rwa [octetCount_append, List.append_assoc] at hcut
      have hshorter : escaped.length < (front ++ '\\' :: 'x' :: escaped).length := by
        simp only [List.length_append, List.length_cons]
        omega
      rw [hdecode, decode_mark, ← octetOf?_of_cutAt?]
      split
      · next front' _ _ escaped' hfront hbehind =>
        obtain rfl : front = front' := by
          rw [hcutFront] at hfront
          exact congrArg Prod.fst (Option.some.inj hfront)
        obtain rfl : escaped = escaped' := by
          rw [hcutBehind] at hbehind
          exact congrArg Prod.snd (Option.some.inj hbehind)
        split
        · next octet hoctet =>
          obtain ⟨⟨hex, behind⟩, hcut, hhex⟩ := Option.bind_eq_some_iff.1 hoctet
          obtain ⟨rfl, -⟩ := eq_of_cutAt? hcut
          -- What could be tried as an escape can be cut off, and is two characters.
          have hdrop : (hex ++ behind).drop 2 = behind := by
            match hex, hhex with
            | [_, _], _ => rfl
          split
          · next behind' hcut' =>
            obtain rfl : behind = behind' := by
              rw [hcut] at hcut'
              exact congrArg Prod.snd (Option.some.inj hcut')
            have hle : behind.length < (front ++ '\\' :: 'x' :: (hex ++ behind)).length :=
              Nat.lt_of_le_of_lt (by simp) hshorter
            rw [ih _ hle _ rfl, hdrop]
            rfl
          · next hcut' =>
            rw [hcut] at hcut'
            contradiction
        · -- No escape, so that only the mark is copied.
          rw [ih _ hshorter _ rfl]
          rfl
      · next hnone => exact absurd hcutBehind (hnone _ _ _ _ hcutFront)

end HexEscape

namespace Listing

open Text HexEscape

/-- A value is unescaped while the pairs of a text are read. -/
inductive ComesTo : List Char → List Char → Prop where
  | here {s key value behind : List Char} (hpair : BeginsPair s key value behind) : ComesTo s value
  /-- The first value is read, and the pairs behind it come to the other one. -/
  | behind {s key first behind text value : List Char} (hpair : BeginsPair s key first behind)
      (htext : readValue first = .ok text) (hrest : ComesTo (trimStart behind) value) :
      ComesTo s value

/-- Pairs are in error where one of their values is. -/
theorem readPairs_of_comesTo {s value : List Char} {fault : LineFault} (h : ComesTo s value)
    (hvalue : readValue value = .error fault) : readPairs s = .error fault := by
  induction h with
  | here hpair =>
    rw [readPairs_of_beginsPair hpair, hvalue]
    rfl
  | behind hpair htext _ ih =>
    rw [readPairs_of_beginsPair hpair, htext, ih hvalue]
    rfl

/-- A line is in error where one of its values is. -/
theorem readMount_of_comesTo {line value : List Char} {fault : LineFault}
    (h : ComesTo (trim line) value) (hvalue : readValue value = .error fault) :
    readMount line = .error (.parse (String.ofList line) fault) := by
  rw [readMount, readMountFields, readPairs_of_comesTo h hvalue]
  rfl

/-- A value is read just if its octets are those of a text. -/
theorem readValue_eq_ok_iff {value text : List Char} :
    readValue value = .ok text ↔ decode value = Utf8.encode text := by
  rw [readValue, ← Utf8.decode_eq_ok_iff]
  cases Utf8.decode (decode value) <;> simp

theorem exists_of_readValue_error {value : List Char} {fault : LineFault}
    (h : readValue value = .error fault) : ∃ place, fault = .valueNotUtf8 place := by
  rw [readValue] at h
  split at h
  · contradiction
  · next place _ => exact ⟨place, (Except.error.inj h).symm⟩

/-- Every value has the octets of one pass from the left over the escapes of two digits. These are
the octets that are checked to be UTF-8 just if no sign and digit stand behind some `\x`; in any
case they are those of the pass that takes such a sign for the first digit, and those of the search,
of which no cut fails. What is read is the text that they denote. If there is none, a line is in
error when reading its pairs comes to the value, and the error carries the line. -/
theorem readValue_unless_signed (value : List Char) :
    (∃ octets, (∀ other, Unescapes DenotesOctet value other ↔ other = octets) ∧
      (decode value = octets ↔ ¬HasSignedEscape value)) ∧
    Unescapes IsReadAs value (decode value) ∧
    decodeBySearch? value = some (decode value) ∧
    (∀ text, readValue value = .ok text ↔ decode value = Utf8.encode text) ∧
    ((∀ text, decode value ≠ Utf8.encode text) →
      ∃ place, readValue value = .error (.valueNotUtf8 place) ∧
        ∀ line, ComesTo (trim line) value →
          readMount line = .error (.parse (String.ofList line) (.valueNotUtf8 place))) := by
  obtain ⟨octets, hoctets⟩ := exists_unescapes DenotesOctet value
  have hunique {other : Utf8.Octets} (hother : Unescapes DenotesOctet value other) :
      other = octets :=
    hother.unique hoctets fun _ _ _ _ => DenotesOctet.unique
  refine ⟨⟨octets, fun other => ⟨hunique, fun h => h ▸ hoctets⟩, ?_⟩, unescapes_decode value,
    decodeBySearch?_eq value, fun text => readValue_eq_ok_iff, fun hnone => ?_⟩
  · rw [← unescapes_decode_iff]
    exact ⟨fun h => h ▸ hoctets, hunique⟩
  · cases hvalue : readValue value with
    | ok text => exact absurd (readValue_eq_ok_iff.1 hvalue) (hnone text)
    | error fault =>
      obtain ⟨place, rfl⟩ := exists_of_readValue_error hvalue
      exact ⟨place, rfl, fun line hline => readMount_of_comesTo hline hvalue⟩

/-- An escape that is cut short and characters of several octets are copied. A value that is no
UTF-8 is in error together with its line, behind another value that can be read. -/
theorem readValue_unless_signed_broken :
    let copied := "é\\x4\\xé\\x5cx41\\x".toList
    let broken := "caf\\xc3\\xa9\\xc3".toList
    let line := " TARGET=\"/\\x20\" SOURCE=\"caf\\xc3\\xa9\\xc3\" ".toList
    readValue copied = .ok "é\\x4\\xé\\x41\\x".toList ∧
      decodeBySearch? copied = some (Utf8.encode "é\\x4\\xé\\x41\\x".toList) ∧
      ComesTo (trim line) broken ∧
      readMount line = .error (.parse (String.ofList line) (.valueNotUtf8 (.incomplete 5))) := by
  intro copied broken line
  have hcopied : decode copied = Utf8.encode "é\\x4\\xé\\x41\\x".toList := by decide +kernel
  obtain ⟨-, -, hsearch, htext, -⟩ := readValue_unless_signed copied
  obtain ⟨-, -, -, -, hbroken⟩ := readValue_unless_signed broken
  have hvalue : readValue broken = .error (.valueNotUtf8 (.incomplete 5)) := by decide +kernel
  have hnone : ∀ text, decode broken ≠ Utf8.encode text := by
    intro text htext
    have := readValue_eq_ok_iff.2 htext
    rw [hvalue] at this
    contradiction
  obtain ⟨place, hplace, hline⟩ := hbroken hnone
  obtain rfl : place = .incomplete 5 := by
    rw [hvalue] at hplace
    cases hplace
    rfl
  have hcomes : ComesTo (trim line) broken := by
    have hcutTarget : cutFirst? valueMark (trim line) =
        some ("TARGET".toList, "/\\x20\" SOURCE=\"caf\\xc3\\xa9\\xc3\"".toList) := by
      decide +kernel
    have hcutSource : cutFirst? valueMark "SOURCE=\"caf\\xc3\\xa9\\xc3\"".toList =
        some ("SOURCE".toList, "caf\\xc3\\xa9\\xc3\"".toList) := by decide +kernel
    have htarget : BeginsPair (trim line) (trim "TARGET".toList) "/\\x20".toList
        " SOURCE=\"caf\\xc3\\xa9\\xc3\"".toList :=
      .mk hcutTarget (by decide +kernel) (by decide +kernel)
    have hsource : BeginsPair "SOURCE=\"caf\\xc3\\xa9\\xc3\"".toList (trim "SOURCE".toList)
        broken [] := .mk hcutSource (by decide +kernel) (by decide +kernel)
    have htext : readValue "/\\x20".toList = .ok "/ ".toList := by decide +kernel
    exact .behind htarget htext (.here hsource)
  exact ⟨(htext _).2 hcopied, hcopied ▸ hsearch, hcomes, hline line hcomes⟩

/-- A sign and a digit behind `\x` are read as one octet, though they are no two digits. -/
theorem not_unescapes_of_signed :
    let value := ['\\', 'x', '+', '4', '1']
    Unescapes DenotesOctet value (Utf8.encode value) ∧
      ¬Unescapes DenotesOctet value (decode value) ∧ readValue value = .ok ['\x04', '1'] := by
  intro value
  have hcopied : Unescapes DenotesOctet value (Utf8.encode value) := by
    have hbehind : Unescapes DenotesOctet ['x', '+', '4', '1']
        (Utf8.encode ['x', '+', '4', '1']) :=
      .copy_of_ne (by decide) <| .copy_of_ne (by decide) <| .copy_of_ne (by decide) <|
        .copy_of_ne (by decide) .nil
    refine .copy (fun high low behind octet h hoctet => ?_) hbehind
    obtain ⟨rfl, -⟩ : '+' = high ∧ _ := by simpa using h
    exact not_isDigit_plus _ hoctet.1
  refine ⟨hcopied, fun h => ?_, by decide +kernel⟩
  have hvalue : decode value = Utf8.encode value :=
    h.unique hcopied fun _ _ _ _ => DenotesOctet.unique
  exact absurd hvalue (by decide +kernel)

end Listing

end BtrfsTopology
