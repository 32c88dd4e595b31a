import BtrfsTopology.Subvolume
import BtrfsTopology.Text.Blank

/-!
# The listing of subvolumes

The tool lists subvolumes as rows of a table below a heading of two lines:

    ID      gen     parent  top level               path
    --      ---     ------  ---------               ----
    256     120     5       5               <FS_TREE>/@

Columns end at tabs, of which there are two in front of the path. The identifier stands in the first
column, that of the parent in the third and the path in the sixth, all without outer blanks. The
top-level subvolume is not listed; it is put in front, and a row that claims to be it is passed over
once both its identifiers have been read.

The tool names the default subvolume on a line of its own, `ID 256 gen 1234 top level 5 path @`.

## Main definitions

* `Listing.readSubvolumes` — the subvolumes of a listing, or the first row that cannot be read
* `Listing.readDefault` — the identifier of the default subvolume
-/

namespace BtrfsTopology.Listing

open Text

/-- The identifier in a column. -/
def readIdentifier (role : IdentifierRole) (column : List Char) : Except LineFault Nat :=
  match readWord (trim column) with
  | .ok id => .ok id
  | .error fault => .error (.invalidIdentifier role (String.ofList (trim column)) fault)

/-- The subvolume of a row, or nothing for the top-level one. -/
def readRow (row : List Char) : Except LineFault (Option Subvolume) :=
  match row.splitOn '\t' with
  | id :: _ :: parent :: _ :: _ :: path :: _ =>
    match readIdentifier .subvolume id with
    | .error fault => .error fault
    | .ok id =>
      match readIdentifier .parent parent with
      | .error fault => .error fault
      | .ok parent =>
        if id = Subvolume.topLevelId then .ok none
        else .ok (some (.ofListed id (String.ofList (trim path)) (some parent)))
  | columns => .error (.tooFewColumns columns.length)

/-- The subvolumes of rows, in order. -/
def readRows : List (List Char) → Except TopologyError (List Subvolume)
  | [] => .ok []
  | row :: rows =>
    if isBlankText row then readRows rows
    else
      match readRow row with
      | .error fault => .error (.parse (String.ofList row) fault)
      | .ok subvolume => (readRows rows).map fun subvolumes => subvolume.toList ++ subvolumes

/-- The subvolumes of a listing in its order, the top-level one in front. -/
def readSubvolumes (listing : String) : Except TopologyError (List Subvolume) :=
  (readRows ((lines listing.toList).drop 2)).map fun subvolumes => .topLevel :: subvolumes

/-- The identifier on a line that names the default subvolume. -/
def readDefaultLine (line : List Char) : Except LineFault Nat :=
  match words line with
  | ['I', 'D'] :: id :: _ => readIdentifier .defaultSubvolume id
  | [['I', 'D']] => .error .missingId
  | _ => .error .expectedId

/-- The identifier of the default subvolume: the first line that is not blank names it. -/
def readDefault (listing : String) : Except TopologyError Nat :=
  match (lines listing.toList).find? fun line => !isBlankText line with
  | none => .error (.parse listing .emptyDefault)
  | some line =>
    match readDefaultLine (trim line) with
    | .ok id => .ok id
    | .error fault => .error (.parse (String.ofList (trim line)) fault)

end BtrfsTopology.Listing
