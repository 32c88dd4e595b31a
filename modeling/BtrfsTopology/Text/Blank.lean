import BtrfsTopology.Text.Split

/-!
# Blank characters

A character is blank when it has the Unicode property `White_Space`. Listings are trimmed and cut
into words by this property, so that a no-break space around a column is dropped like any other.

## Main definitions

* `Text.isBlank` — the property as a table of its twenty-five characters
* `Text.trimStart`, `Text.trimEnd`, `Text.trim` — a text without its outer blanks
* `Text.isBlankText` — a text of blanks only
* `Text.words` — what stands between blanks
-/

namespace BtrfsTopology.Text

/-- The code points with the property `White_Space`, as closed ranges in ascending order. -/
def blankRanges : List (Nat × Nat) :=
  [(0x09, 0x0D), (0x20, 0x20), (0x85, 0x85), (0xA0, 0xA0), (0x1680, 0x1680), (0x2000, 0x200A),
    (0x2028, 0x2029), (0x202F, 0x202F), (0x205F, 0x205F), (0x3000, 0x3000)]

/-- Whether a character is white space. -/
def isBlank (c : Char) : Bool :=
  blankRanges.any fun (low, high) => low ≤ c.toNat && c.toNat ≤ high

/-- The text from its first character that is not blank. -/
def trimStart (s : List Char) : List Char :=
  s.dropWhile isBlank

/-- The text up to its last character that is not blank. -/
def trimEnd (s : List Char) : List Char :=
  (s.reverse.dropWhile isBlank).reverse

/-- The text without the blanks at either end. -/
def trim (s : List Char) : List Char :=
  trimEnd (trimStart s)

/-- Whether a text has no character but blanks. -/
def isBlankText (s : List Char) : Bool :=
  s.all isBlank

/-- The words of a text: its parts between blanks that are not empty. -/
def words (s : List Char) : List (List Char) :=
  (s.splitOnP isBlank).filter fun word => !word.isEmpty

end BtrfsTopology.Text
