import BtrfsTopology.Error
import BtrfsTopology.Text.Blank
import BtrfsTopology.Text.Split
import BtrfsTopology.VfsPath

/-!
# The listing of filesystems

The tool lists each filesystem as a heading and one line for each of its devices:

    Label: 'ROOT'  uuid: 2bdcd61d-079f-5f3d-b79e-05b15cc58a46
            Total devices 1 FS bytes used 8.03GiB
            devid    1 size 20.00GiB used 10.02GiB path /dev/nvme0n1p4

A label is free text, so the identity is what follows the last `uuid:` of the heading, and the path
of a device is what follows the first ` path ` of its line. Lines of any other kind are passed over.

## Main definitions

* `ListedFilesystem` — a filesystem as it is listed
* `Listing.readFilesystems` — the filesystems of a listing, or the first line that cannot be read
-/

namespace BtrfsTopology

/-- A filesystem as it is listed. -/
structure ListedFilesystem where
  uuid : String
  label : Option String
  /-- The devices in the order of their lines. -/
  devices : List VfsPath
  deriving DecidableEq, Repr

namespace Listing

open Text

/-- What a heading begins with. -/
def headingMark : List Char := ['L', 'a', 'b', 'e', 'l', ':']

/-- What the identity follows. -/
def uuidMark : List Char := ['u', 'u', 'i', 'd', ':']

/-- What a device line begins with. -/
def deviceMark : List Char := ['d', 'e', 'v', 'i', 'd']

/-- What the path of a device follows. -/
def devicePathMark : List Char := [' ', 'p', 'a', 't', 'h', ' ']

/-- A text without all the heading marks it begins with. -/
def dropHeadingMarks : List Char → List Char
  | 'L' :: 'a' :: 'b' :: 'e' :: 'l' :: ':' :: rest => dropHeadingMarks rest
  | s => s

/-- A text without the apostrophes around it, one pair at most. -/
def unquote (s : List Char) : List Char :=
  match s with
  | '\x27' :: inner => if inner.getLast? = some '\x27' then inner.dropLast else s
  | _ => s

/-- The label that a heading states: none when the word stands there without apostrophes. -/
def readLabel (s : List Char) : Option String :=
  if s = ['n', 'o', 'n', 'e'] then none else some (String.ofList (unquote s))

/-- The filesystem that a heading introduces. -/
def readHeading (line : List Char) : Except LineFault ListedFilesystem :=
  match cutLast? uuidMark (dropHeadingMarks line) with
  | none => .error .missingUuid
  | some (label, uuid) =>
    if (trim uuid).isEmpty then .error .emptyUuid
    else .ok ⟨String.ofList (trim uuid), readLabel (trim label), []⟩

/-- The device that a device line names. -/
def readDevice (line : List Char) : Except LineFault VfsPath :=
  match cutFirst? devicePathMark line with
  | none => .error .missingDevicePath
  | some (_, path) =>
    if (trim path).isEmpty then .error .emptyDevicePath else .ok ⟨String.ofList (trim path)⟩

/-- Takes a line without outer blanks to the filesystems read so far, the latest in front. -/
def takeFilesystemLine (read : List ListedFilesystem) (line : List Char) :
    Except LineFault (List ListedFilesystem) :=
  if headingMark.isPrefixOf line then
    (readHeading line).map fun heading => heading :: read
  else if deviceMark.isPrefixOf line then
    match read with
    | [] => .error .deviceOutsideFilesystem
    | latest :: earlier =>
      (readDevice line).map fun device =>
        { latest with devices := latest.devices ++ [device] } :: earlier
  else .ok read

/-- Reads lines after those that gave `read`. -/
def readFilesystemLines (read : List ListedFilesystem) :
    List (List Char) → Except TopologyError (List ListedFilesystem)
  | [] => .ok read
  | line :: lines =>
    match takeFilesystemLine read (trim line) with
    | .ok read => readFilesystemLines read lines
    | .error fault => .error (.parse (String.ofList (trim line)) fault)

/-- The filesystems of a listing in its order. -/
def readFilesystems (listing : String) : Except TopologyError (List ListedFilesystem) :=
  (readFilesystemLines [] (lines listing.toList)).map List.reverse

end Listing

end BtrfsTopology
