import BtrfsTopology.Text.HexEscape

/-!
# Quoted text of a configuration file

A TOML file quotes text in four ways: between quotation marks, where a backslash begins an escape,
or between apostrophes, where every character stands for itself; and each of them on one line, or
over several lines between marks written three times. Over several lines a line break right behind
the opening is dropped, and one or two marks may stand right in front of the closing. Between
quotation marks a backslash at the end of a line takes the blanks and line breaks behind it away.

## Main definitions

* `Toml.readEscape` — the character that an escape denotes
* `Toml.readBasic`, `Toml.readLiteral` — text on one line
* `Toml.readBasicLines`, `Toml.readLiteralLines` — text over several lines
* `Toml.readQuoted` — text in any of the four ways
-/

namespace BtrfsTopology.Toml

/-- A quotation mark. -/
def quotationMark : Char := '\x22'

/-- A control character, which may not stand in a text; the tabulator is none. -/
def isControl (c : Char) : Bool :=
  c.toNat < 0x20 && c != '\t' || c.toNat = 0x7F

/-- Reads so many hexadecimal digits after those that denote `value`. -/
def readHex : Nat → Nat → List Char → Option (Nat × List Char)
  | 0, value, s => some (value, s)
  | _ + 1, _, [] => none
  | count + 1, value, c :: s =>
    match HexEscape.digitValue? c with
    | some digit => readHex count (value * 16 + digit) s
    | none => none

/-- Reads the character whose code point is written in so many hexadecimal digits. -/
def readCodePoint (count : Nat) (s : List Char) : Option (Char × List Char) :=
  match readHex count 0 s with
  | some (value, rest) => if value.isValidChar then some (Char.ofNat value, rest) else none
  | none => none

/-- The character that an escape of one letter denotes. -/
def shortEscape? (c : Char) : Option Char :=
  [('b', '\x08'), ('t', '\t'), ('n', '\n'), ('f', '\x0c'), ('r', '\r'), ('e', '\x1b'),
    (quotationMark, quotationMark), ('\\', '\\')].lookup c

/-- How many hexadecimal digits follow the letter of an escape that gives a code point. -/
def escapeWidth? (c : Char) : Option Nat :=
  [('x', 2), ('u', 4), ('U', 8)].lookup c

/-- Reads what follows the backslash of an escape. -/
def readEscape : List Char → Option (Char × List Char)
  | [] => none
  | c :: s =>
    match shortEscape? c, escapeWidth? c with
    | some d, _ => some (d, s)
    | none, some width => readCodePoint width s
    | none, none => none

theorem length_of_readHex {count value value' : Nat} {s rest : List Char}
    (h : readHex count value s = some (value', rest)) : rest.length ≤ s.length := by
  induction count generalizing value s with
  | zero =>
    simp only [readHex, Option.some.injEq, Prod.mk.injEq] at h
    exact h.2 ▸ Nat.le_refl _
  | succ count ih =>
    cases s with
    | nil => simp [readHex] at h
    | cons c s =>
      simp only [readHex] at h
      split at h
      · exact Nat.le_succ_of_le (ih h)
      · contradiction

theorem length_of_readCodePoint {count : Nat} {c : Char} {s rest : List Char}
    (h : readCodePoint count s = some (c, rest)) : rest.length ≤ s.length := by
  simp only [readCodePoint] at h
  split at h
  · next value rest' hread =>
    split at h
    · simp only [Option.some.injEq, Prod.mk.injEq] at h
      exact h.2 ▸ length_of_readHex hread
    · contradiction
  · contradiction

theorem length_of_readEscape {c : Char} {s rest : List Char}
    (h : readEscape s = some (c, rest)) : rest.length ≤ s.length := by
  cases s with
  | nil => simp [readEscape] at h
  | cons d s =>
    simp only [readEscape] at h
    split at h
    · simp only [Option.some.injEq, Prod.mk.injEq] at h
      simp [← h.2]
    · exact Nat.le_succ_of_le (length_of_readCodePoint h)
    · contradiction

/-- Reads text behind an opening quotation mark, up to the next one. -/
def readBasic : List Char → Option (List Char × List Char)
  | [] => none
  | c :: s =>
    if c = quotationMark then some ([], s)
    else if c = '\\' then
      match _h : readEscape s with
      | some (d, rest) => (readBasic rest).map fun (text, rest) => (d :: text, rest)
      | none => none
    else if isControl c then none
    else (readBasic s).map fun (text, rest) => (c :: text, rest)
termination_by s => s.length
decreasing_by
  · have := length_of_readEscape _h
    simp only [List.length_cons]
    omega
  · simp

/-- Reads text behind an opening apostrophe, up to the next one. -/
def readLiteral : List Char → Option (List Char × List Char)
  | [] => none
  | c :: s =>
    if c = '\x27' then some ([], s)
    else if isControl c then none
    else (readLiteral s).map fun (text, rest) => (c :: text, rest)

/-- A text without the line break it begins with, one at most. -/
def dropLineBreak : List Char → List Char
  | '\n' :: s => s
  | '\r' :: '\n' :: s => s
  | s => s

/-- A text without the blanks and line breaks it begins with. -/
def dropGap : List Char → List Char
  | ' ' :: s => dropGap s
  | '\t' :: s => dropGap s
  | '\n' :: s => dropGap s
  | '\r' :: '\n' :: s => dropGap s
  | s => s

/-- What follows a backslash at the end of a line; blanks may stand between the two. -/
def afterLineEnd? : List Char → Option (List Char)
  | ' ' :: s => afterLineEnd? s
  | '\t' :: s => afterLineEnd? s
  | '\n' :: s => some (dropGap s)
  | '\r' :: '\n' :: s => some (dropGap s)
  | _ => none

theorem length_dropGap (s : List Char) : (dropGap s).length ≤ s.length := by
  fun_induction dropGap s <;> simp_all <;> omega

theorem length_of_afterLineEnd? {s rest : List Char} (h : afterLineEnd? s = some rest) :
    rest.length < s.length := by
  fun_induction afterLineEnd? s with
  | case1 s ih => exact Nat.lt_succ_of_lt (ih h)
  | case2 s ih => exact Nat.lt_succ_of_lt (ih h)
  | case3 s =>
    obtain rfl := Option.some.inj h
    exact Nat.lt_succ_of_le (length_dropGap s)
  | case4 s =>
    obtain rfl := Option.some.inj h
    exact Nat.lt_succ_of_le (Nat.le_succ_of_le (length_dropGap s))
  | case5 => contradiction

/-- The marks in front of a closing mark written three times, and what follows it: a run of marks
closes with the last three of its first five. -/
def closing? (mark : Char) (s : List Char) : Option (List Char × List Char) :=
  let run := min 5 (s.takeWhile (· = mark)).length
  if run < 3 then none else some (List.replicate (run - 3) mark, s.drop run)

/-- Reads text over several lines behind its opening quotation marks, up to the closing ones. -/
def readBasicLines (s : List Char) : Option (List Char × List Char) :=
  match closing? quotationMark s with
  | some closed => some closed
  | none =>
    match s with
    | [] => none
    | '\r' :: '\n' :: s =>
      (readBasicLines s).map fun (text, rest) => ('\r' :: '\n' :: text, rest)
    | c :: s =>
      if c = '\\' then
        match _h : afterLineEnd? s with
        | some rest => readBasicLines rest
        | none =>
          match _h : readEscape s with
          | some (d, rest) => (readBasicLines rest).map fun (text, rest) => (d :: text, rest)
          | none => none
      else if isControl c && c != '\n' then none
      else (readBasicLines s).map fun (text, rest) => (c :: text, rest)
termination_by s.length
decreasing_by
  · simp only [List.length_cons]
    omega
  · have := length_of_afterLineEnd? _h
    simp only [List.length_cons]
    omega
  · have := length_of_readEscape _h
    simp only [List.length_cons]
    omega
  · simp

/-- Reads text over several lines behind its opening apostrophes, up to the closing ones. -/
def readLiteralLines (s : List Char) : Option (List Char × List Char) :=
  match closing? '\x27' s with
  | some closed => some closed
  | none =>
    match s with
    | [] => none
    | '\r' :: '\n' :: s =>
      (readLiteralLines s).map fun (text, rest) => ('\r' :: '\n' :: text, rest)
    | c :: s =>
      if isControl c && c != '\n' then none
      else (readLiteralLines s).map fun (text, rest) => (c :: text, rest)

/-- Reads text in any of the four ways. -/
def readQuoted : List Char → Option (List Char × List Char)
  | '\x22' :: '\x22' :: '\x22' :: s => readBasicLines (dropLineBreak s)
  | '\x22' :: s => readBasic s
  | '\x27' :: '\x27' :: '\x27' :: s => readLiteralLines (dropLineBreak s)
  | '\x27' :: s => readLiteral s
  | _ => none

end BtrfsTopology.Toml
