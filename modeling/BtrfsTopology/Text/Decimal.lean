/-!
# Decimal identifiers

Object identifiers are 64-bit words written in decimal. A reader accepts one leading `+` and any
number of leading zeros; it stops at the first character that is no digit, or at the first digit
that takes the value past the largest word.

## Main definitions

* `Text.NumberFault` — why a text is no identifier
* `Text.readWord` — the word a text denotes
* `Text.writeWord` — the shortest text of a number
-/

namespace BtrfsTopology.Text

/-- Why a text does not denote a 64-bit word. -/
inductive NumberFault where
  | empty
  /-- Some character is no digit, or a sign stands alone. -/
  | invalidDigit
  /-- The digits read so far denote more than the largest word. -/
  | tooLarge
  deriving DecidableEq, Repr

/-- The wording of a number fault. -/
def NumberFault.message : NumberFault → String
  | .empty => "cannot parse integer from empty string"
  | .invalidDigit => "invalid digit found in string"
  | .tooLarge => "number too large to fit in target type"

/-- One more than the largest 64-bit word, two to the 64th power. -/
def wordBound : Nat := 0x10000000000000000

/-- The value of an ASCII decimal digit. -/
def digitValue? (c : Char) : Option Nat :=
  if '0' ≤ c ∧ c ≤ '9' then some (c.toNat - '0'.toNat) else none

/-- Reads digits after those that denote `value`. -/
def readDigits (value : Nat) : List Char → Except NumberFault Nat
  | [] => .ok value
  | c :: rest =>
    match digitValue? c with
    | none => .error .invalidDigit
    | some d =>
      if value * 10 + d < wordBound then readDigits (value * 10 + d) rest else .error .tooLarge

/-- The word that a text denotes. -/
def readWord : List Char → Except NumberFault Nat
  | [] => .error .empty
  | ['+'] => .error .invalidDigit
  | '+' :: digits => readDigits 0 digits
  | digits => readDigits 0 digits

/-- The decimal text of a number, without leading zeros. -/
def writeWord (n : Nat) : String :=
  String.ofList (Nat.toDigits 10 n)

end BtrfsTopology.Text
