/-!
# UTF-8

Reading octets as text. The first octet of a character says how many octets follow it and which
range the second one lies in; all later ones lie in `0x80`–`0xBF`. An octet outside its range ends
the broken part before it and is read again as a first octet, so that a broken part is the longest
run that could still have begun a character.

## Main definitions

* `Utf8.encode` — the octets of a text
* `Utf8.pieces` — the characters and broken parts of an octet sequence
* `Utf8.decode` — the text, or the place of the first broken part
* `Utf8.decodeLossy` — the text with `U+FFFD` in the place of each broken part
-/

namespace BtrfsTopology.Utf8

/-- An octet sequence. -/
abbrev Octets := List UInt8

/-- The octets of a text. -/
def encode (s : List Char) : Octets :=
  s.flatMap String.utf8EncodeChar

/-- A character of which some octets have been read. -/
structure Pending where
  /-- How many octets are to come after the next one. -/
  more : Nat
  low : Nat
  high : Nat
  bits : Nat
  taken : Nat

/-- What a first octet stands for. -/
inductive Lead where
  | whole (c : Char)
  | opening (p : Pending)
  /-- Nothing: no character begins so. -/
  | broken

/-- Reads a first octet. Overlong forms, surrogates and values past `U+10FFFF` are excluded by the
range of the second octet. -/
def Lead.ofOctet (octet : UInt8) : Lead :=
  let b := octet.toNat
  if b < 0x80 then .whole (Char.ofNat b)
  else if b < 0xC2 then .broken
  else if b < 0xE0 then .opening ⟨0, 0x80, 0xBF, b - 0xC0, 1⟩
  else if b < 0xF0 then
    .opening ⟨1, if b = 0xE0 then 0xA0 else 0x80, if b = 0xED then 0x9F else 0xBF, b - 0xE0, 1⟩
  else if b < 0xF5 then
    .opening ⟨2, if b = 0xF0 then 0x90 else 0x80, if b = 0xF4 then 0x8F else 0xBF, b - 0xF0, 1⟩
  else .broken

/-- Whether an octet may follow. -/
def Pending.admits (p : Pending) (octet : UInt8) : Bool :=
  p.low ≤ octet.toNat && octet.toNat ≤ p.high

/-- The bits read, with those of one more octet. -/
def Pending.bitsWith (p : Pending) (octet : UInt8) : Nat :=
  p.bits * 64 + (octet.toNat - 0x80)

/-- The character or the longer beginning that an admitted octet makes. -/
def Pending.extend (p : Pending) (octet : UInt8) : Char ⊕ Pending :=
  match p.more with
  | 0 => .inl (Char.ofNat (p.bitsWith octet))
  | more + 1 => .inr ⟨more, 0x80, 0xBF, p.bitsWith octet, p.taken + 1⟩

/-- A part of an octet sequence. -/
inductive Piece where
  | char (c : Char)
  /-- So many octets that begin no character. -/
  | invalid (length : Nat)
  /-- The end of the octets inside a character. -/
  | incomplete
  deriving DecidableEq, Repr

/-- The pieces of an octet sequence, given the character under way. -/
def piecesFrom : Option Pending → Octets → List Piece
  | none, [] => []
  | some _, [] => [.incomplete]
  | none, b :: rest =>
    match Lead.ofOctet b with
    | .whole c => .char c :: piecesFrom none rest
    | .opening p => piecesFrom (some p) rest
    | .broken => .invalid 1 :: piecesFrom none rest
  | some p, b :: rest =>
    if p.admits b then
      match p.extend b with
      | .inl c => .char c :: piecesFrom none rest
      | .inr q => piecesFrom (some q) rest
    else
      .invalid p.taken ::
        match Lead.ofOctet b with
        | .whole c => .char c :: piecesFrom none rest
        | .opening q => piecesFrom (some q) rest
        | .broken => .invalid 1 :: piecesFrom none rest

/-- The pieces of an octet sequence. -/
def pieces (octets : Octets) : List Piece :=
  piecesFrom none octets

/-- The first place at which octets are no UTF-8. -/
inductive Fault where
  /-- So many octets from an index on begin no character. -/
  | invalid (length index : Nat)
  /-- The octets from an index on are the beginning of a character. -/
  | incomplete (index : Nat)
  deriving DecidableEq, Repr

/-- The wording of a fault. -/
def Fault.message : Fault → String
  | .invalid length index =>
    "invalid utf-8 sequence of " ++ toString length ++ " bytes from index " ++ toString index
  | .incomplete index => "incomplete utf-8 byte sequence from index " ++ toString index

/-- The text of pieces that begin at an octet index, or the first fault among them. -/
def textOfPieces (index : Nat) : List Piece → Except Fault (List Char)
  | [] => .ok []
  | .char c :: rest =>
    match textOfPieces (index + c.utf8Size) rest with
    | .ok s => .ok (c :: s)
    | .error fault => .error fault
  | .invalid length :: _ => .error (.invalid length index)
  | .incomplete :: _ => .error (.incomplete index)

/-- The text that octets denote. -/
def decode (octets : Octets) : Except Fault (List Char) :=
  textOfPieces 0 (pieces octets)

/-- The character that stands for a broken part. -/
def replacement : Char := '\uFFFD'

/-- The character of a piece. -/
def Piece.toChar : Piece → Char
  | .char c => c
  | .invalid _ => replacement
  | .incomplete => replacement

/-- The text that octets denote, each broken part replaced by one `U+FFFD`. -/
def decodeLossy (octets : Octets) : List Char :=
  (pieces octets).map Piece.toChar

end BtrfsTopology.Utf8
