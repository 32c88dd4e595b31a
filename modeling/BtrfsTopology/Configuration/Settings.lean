import BtrfsTopology.Configuration.Quoted

/-!
# Settings of a configuration file

A configuration file is a TOML document of which only one kind is of use here: settings of the form
`key = "text"`, one on a line, with blank lines and comments. A document of any other kind has
something in it that no configuration has, so it is refused as a whole.

## Main definitions

* `Toml.readSetting` — the setting that a text begins with
* `Toml.readSettings` — all settings of a document in order
-/

namespace BtrfsTopology.Toml

/-- A text without the blanks it begins with; a line break is no blank. -/
def dropBlanks (s : List Char) : List Char :=
  s.dropWhile fun c => c = ' ' || c = '\t'

/-- A text without the comment it begins with. -/
def dropComment : List Char → List Char
  | '#' :: s => s.dropWhile fun c => !isControl c
  | s => s

/-- What follows the end of a line that a text begins with; blanks and a comment may precede it. -/
def afterLine? (s : List Char) : Option (List Char) :=
  match dropComment (dropBlanks s) with
  | [] => some []
  | '\n' :: s => some s
  | '\r' :: '\n' :: s => some s
  | _ => none

/-- A character of a key that is not quoted. -/
def isKeyChar (c : Char) : Bool :=
  c.isAlphanum || c = '_' || c = '-'

/-- Reads a key, which may be quoted on one line. -/
def readKey : List Char → Option (List Char × List Char)
  | '\x22' :: s => readBasic s
  | '\x27' :: s => readLiteral s
  | s =>
    if (s.takeWhile isKeyChar).isEmpty then none
    else some (s.takeWhile isKeyChar, s.dropWhile isKeyChar)

/-- Reads a setting and the rest of its line. -/
def readSetting (s : List Char) : Option ((List Char × List Char) × List Char) := do
  let (key, s) ← readKey s
  match dropBlanks s with
  | '=' :: s =>
    let (value, s) ← readQuoted (dropBlanks s)
    let s ← afterLine? s
    return ((key, value), s)
  | _ => none

/-- Reads settings line by line. Each line takes at least one character. -/
def readSettings (s : List Char) : Option (List (List Char × List Char)) :=
  if s.isEmpty then some []
  else
    match afterLine? s with
    | some rest => if rest.length < s.length then readSettings rest else none
    | none =>
      match readSetting (dropBlanks s) with
      | some (setting, rest) =>
        if rest.length < s.length then (readSettings rest).map fun more => setting :: more
        else none
      | none => none
termination_by s.length

/-- The settings of a document, which may begin with a byte order mark. -/
def readDocument : List Char → Option (List (List Char × List Char))
  | '\uFEFF' :: s => readSettings s
  | s => readSettings s

end BtrfsTopology.Toml
