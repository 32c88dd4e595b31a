import BtrfsTopology.Text.Utf8

/-!
# Hexadecimal escapes

A mount listing writes an unsafe octet as `\x` and two hexadecimal digits. A character of several
octets is written one octet at a time, so unescaping yields octets and not characters.

An escape is tried at every `\x` from the left. What begins no escape is copied, and reading goes on
right behind the `\x`; an octet that an escape denotes is never looked at again. In the place of the
first digit a `+` is accepted too.

## Main definitions

* `HexEscape.octet?` — the octet that two characters denote
* `HexEscape.decode` — the octets of an escaped text
-/

namespace BtrfsTopology.HexEscape

/-- The value of a hexadecimal digit of either case. -/
def digitValue? (c : Char) : Option Nat :=
  if '0' ≤ c ∧ c ≤ '9' then some (c.toNat - '0'.toNat)
  else if 'a' ≤ c ∧ c ≤ 'f' then some (c.toNat - 'a'.toNat + 10)
  else if 'A' ≤ c ∧ c ≤ 'F' then some (c.toNat - 'A'.toNat + 10)
  else none

/-- The octet that the two characters behind `\x` denote. -/
def octet? (high low : Char) : Option UInt8 :=
  match digitValue? high, digitValue? low with
  | some h, some l => some (UInt8.ofNat (h * 16 + l))
  | none, some l => if high = '+' then some (UInt8.ofNat l) else none
  | _, none => none

/-- The octets of a text in which escapes stand for octets and all else for itself. -/
def decode : List Char → Utf8.Octets
  | [] => []
  | '\\' :: 'x' :: high :: low :: rest =>
    match octet? high low with
    | some octet => octet :: decode rest
    | none => Utf8.encode ['\\', 'x'] ++ decode (high :: low :: rest)
  | c :: rest => Utf8.encode [c] ++ decode rest

end BtrfsTopology.HexEscape
