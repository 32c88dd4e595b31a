import BtrfsTopology.InternalPath
import BtrfsTopology.Mountpoint
import BtrfsTopology.Text.Blank
import BtrfsTopology.Text.HexEscape

/-!
# The listing of mounts

The tool lists each mount as pairs of a key and a value on one line:

    TARGET="/" SOURCE="/dev/sda1" FSTYPE="btrfs" OPTIONS="rw,subvolid=256,subvol=/@"

Values are escaped, so the first quotation mark ends one. Of pairs with the same key, and of options
with the same name, the last counts. Mounts of other filesystem types are passed over once their
line has been read.

## Main definitions

* `Listing.readPairs` — the pairs of a line
* `Listing.readOptions` — the options of a mount
* `Listing.readMount` — the mount of a line
* `Listing.readMounts` — the mounts of a listing, or the first line that cannot be read
-/

namespace BtrfsTopology.Listing

open Text

/-- The text that an escaped value denotes. -/
def readValue (value : List Char) : Except LineFault (List Char) :=
  match Utf8.decode (HexEscape.decode value) with
  | .ok text => .ok text
  | .error fault => .error (.valueNotUtf8 fault)

/-- What stands between a key and its value. -/
def valueMark : List Char := ['=', '\x22']

/-- What ends a value. -/
def quotationMark : List Char := ['\x22']

/-- The pairs of a text without blanks in front; values are unescaped. -/
def readPairs (s : List Char) : Except LineFault (List (List Char × List Char)) :=
  if s.isEmpty then .ok []
  else
    match _hkey : cutFirst? valueMark s with
    | none => .error .expectedPair
    | some (before, afterKey) =>
      let key := trim before
      if key.isEmpty || key.any isBlank then .error (.invalidKey (String.ofList key))
      else
        match _hvalue : cutFirst? quotationMark afterKey with
        | none => .error (.unterminatedValue (String.ofList key))
        | some (value, afterValue) =>
          match readValue value with
          | .error fault => .error fault
          | .ok text => (readPairs (trimStart afterValue)).map fun pairs => (key, text) :: pairs
termination_by s.length
decreasing_by
  have h₁ := length_of_cutFirst? _hkey
  have h₂ := length_of_cutFirst? _hvalue
  have h₃ : (trimStart afterValue).length ≤ afterValue.length :=
    (List.dropWhile_sublist _).length_le
  simp only [valueMark, quotationMark, List.length_cons, List.length_nil] at h₁ h₂
  omega

/-- What the last entry with a key holds. -/
def lastUnder? {α : Type} (key : String) (entries : List (List Char × α)) : Option α :=
  entries.reverse.lookup key.toList

/-- A field that every record has. -/
def readField (key : String) (pairs : List (List Char × List Char)) :
    Except LineFault (List Char) :=
  match lastUnder? key pairs with
  | some value => .ok value
  | none => .error (.missingField key)

/-- The options of a mount, each a name with or without a value, between commas. -/
def readOptions (options : List Char) : List (List Char × Option (List Char)) :=
  ((options.splitOn ',').filter fun option => !option.isEmpty).map fun option =>
    match cutFirst? ['='] option with
    | some (name, value) => (name, some value)
    | none => (option, none)

/-- The value of an option; an option without a value counts as absent. -/
def optionValue? (name : String) (options : List (List Char × Option (List Char))) :
    Option (List Char) :=
  (lastUnder? name options).join

/-- The subvolume that the options of a mount name: its identifier and its internal path. -/
def readMountedSubvolume (options : List Char) : Except MountFault (Nat × String) :=
  match optionValue? "subvolid" (readOptions options) with
  | none => .error .missingSubvolumeId
  | some id =>
    match readWord id with
    | .error fault => .error (.invalidSubvolumeId fault)
    | .ok id =>
      match optionValue? "subvol" (readOptions options) with
      | none => .error .missingSubvolumePath
      | some path => .ok (id, InternalPath.normalize (String.ofList path))

/-- The fields of a mount record. -/
structure MountFields where
  target : List Char
  source : List Char
  fstype : List Char
  options : List Char

/-- The fields of a line. Of several that are missing, the first in the order of the structure is
reported. -/
def readMountFields (line : List Char) : Except LineFault MountFields := do
  let pairs ← readPairs (trim line)
  let target ← readField "TARGET" pairs
  let source ← readField "SOURCE" pairs
  let fstype ← readField "FSTYPE" pairs
  let options ← readField "OPTIONS" pairs
  return ⟨target, source, fstype, options⟩

/-- The mount that a line records, or nothing when it is of another filesystem type. -/
def readMount (line : List Char) : Except TopologyError (Option Mountpoint) :=
  match readMountFields line with
  | .error fault => .error (.parse (String.ofList line) fault)
  | .ok fields =>
    if fields.fstype = ['b', 't', 'r', 'f', 's'] then
      match readMountedSubvolume fields.options with
      | .error fault => .error (.malformedMount (String.ofList line) fault)
      | .ok (id, path) =>
        .ok (some ⟨⟨String.ofList fields.target⟩, ⟨String.ofList fields.source⟩, id, path⟩)
    else .ok none

/-- The mounts of lines, in order. -/
def readMountLines : List (List Char) → Except TopologyError (List Mountpoint)
  | [] => .ok []
  | line :: lines =>
    if isBlankText line then readMountLines lines
    else
      match readMount line with
      | .error e => .error e
      | .ok mount => (readMountLines lines).map fun mounts => mount.toList ++ mounts

/-- The mounts of a listing in its order. -/
def readMounts (listing : String) : Except TopologyError (List Mountpoint) :=
  readMountLines (lines listing.toList)

end BtrfsTopology.Listing
