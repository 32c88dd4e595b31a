import BtrfsTopology.Text.Split

/-!
# Paths of the mounted file tree

A path is kept exactly as it was written. What it denotes are its components: repeated slashes, a
slash at the end, and `.` anywhere but at the start of a relative path do not count. Paths are
compared and ordered by components.

A path is a text here. On a host a file name may be any octets but a slash and NUL, so a path whose
octets are not UTF-8 has no value, and nothing is said of it: not of a device or a tool at such a
path, and not of looking it up in the mounts, where the octets at fault would be replaced by U+FFFD
in what stands behind the mount.

## Main definitions

* `VfsPath` — a path as it was written
* `VfsPath.Component`, `VfsPath.components` — what a path denotes, step by step
* `VfsPath.startsWith` — whether a path lies at or below another
* `VfsPath.below?` — the text of a path behind a path above it
* `VfsPath.join` — a path below another
-/

namespace BtrfsTopology

/-- A path of the mounted file tree, as it was written. -/
structure VfsPath where
  text : String
  deriving DecidableEq, Repr, Inhabited

namespace VfsPath

/-- One step of a path. -/
inductive Component where
  /-- The slash that an absolute path begins with. -/
  | root
  /-- The `.` that a relative path begins with. -/
  | current
  | up
  | name (text : List Char)
  deriving DecidableEq, Repr

/-- The key by which components are ordered: the root first, then `.`, `..` and the names by their
code points. -/
def Component.orderKey : Component → List Nat
  | .root => [0]
  | .current => [1]
  | .up => [2]
  | .name text => 3 :: text.map Char.toNat

instance : LT Component := ⟨fun a b => a.orderKey < b.orderKey⟩

instance : DecidableLT Component := fun a b => inferInstanceAs (Decidable (a.orderKey < b.orderKey))

/-- A part of a path between slashes, with the component it stands for, if any. -/
abbrev Part := List Char × Option Component

/-- A part that is not the first of its path. -/
def innerPart (part : List Char) : Part :=
  (part,
    if part = [] ∨ part = ['.'] then none
    else if part = ['.', '.'] then some .up
    else some (.name part))

/-- The first part of a path; it is empty when the path is absolute. -/
def leadingPart (absolute : Bool) (part : List Char) : Part :=
  if absolute then (part, some .root)
  else if part = ['.'] then (part, some .current)
  else innerPart part

/-- Whether a path begins with a slash. -/
def isAbsolute (path : VfsPath) : Bool :=
  path.text.toList.head? = some '/'

/-- The parts of a path between slashes. -/
def parts (path : VfsPath) : List Part :=
  match path.text.toList.splitOn '/' with
  | [] => []
  | first :: rest => leadingPart path.isAbsolute first :: rest.map innerPart

/-- The components of a path. -/
def components (path : VfsPath) : List Component :=
  path.parts.filterMap Prod.snd

/-- Whether two paths have the same components. -/
def sameAs (path other : VfsPath) : Bool :=
  path.components = other.components

/-- Whether a path lies at or below `base`. -/
def startsWith (path base : VfsPath) : Bool :=
  base.components.isPrefixOf path.components

/-- The parts behind the first `n` that stand for a component. -/
def dropComponents : Nat → List Part → List Part
  | 0, parts => parts
  | _ + 1, [] => []
  | n + 1, (_, none) :: rest => dropComponents (n + 1) rest
  | n + 1, (_, some _) :: rest => dropComponents n rest

/-- Parts without those at either end that stand for no component. -/
def trimParts (parts : List Part) : List Part :=
  ((parts.dropWhile (·.2.isNone)).reverse.dropWhile (·.2.isNone)).reverse

/-- The text of a path behind `base`, when it lies at or below `base`. It begins and ends with a
component; in between it stays as it was written. Nothing is left of a root alone. -/
def below? (path base : VfsPath) : Option String :=
  if path.startsWith base then
    let rest := trimParts (dropComponents base.components.length path.parts)
    some (String.ofList (['/'].intercalate (rest.map Prod.fst)))
  else none

/-- The path `relative` below `base`. The text of `base` stays as it was written; a slash is put
between the two unless `base` is empty or ends with one. An empty `relative` leaves `base`. -/
def join (base : VfsPath) (relative : String) : VfsPath :=
  if relative.toList = [] then base
  else if base.text.toList = [] ∨ base.text.toList.getLast? = some '/' then
    ⟨base.text ++ relative⟩
  else ⟨base.text ++ "/" ++ relative⟩

end VfsPath

end BtrfsTopology
