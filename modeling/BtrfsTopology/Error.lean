import BtrfsTopology.Text.Decimal
import BtrfsTopology.Text.Utf8

/-!
# Errors

An error is its cause: what was looked at and what is wrong with it. The wording of every cause is
in this file.

## Main definitions

* `SystemFault` — why the system could not do what it was asked
* `LineFault` — what is wrong with a line of a listing
* `MountFault` — what is wrong with the options of a mount record
* `TopologyError` — all that can go wrong in a query or a change
* `TopologyError.message` — the text of an error
-/

namespace BtrfsTopology

/-- Why the system could not read a file or start a program. -/
inductive SystemFault where
  | notFound
  | isDirectory
  /-- A word of a command has a NUL character. -/
  | nulInCommand
  | nulInFileName
  | notText
  /-- Any other fault, in the words of the system. -/
  | other (description : String)
  deriving DecidableEq, Repr

/-- The wording of a system fault. -/
def SystemFault.message : SystemFault → String
  | .notFound => "No such file or directory (os error 2)"
  | .isDirectory => "Is a directory (os error 21)"
  | .nulInCommand => "nul byte found in provided data"
  | .nulInFileName => "file name contained an unexpected NUL byte"
  | .notText => "stream did not contain valid UTF-8"
  | .other description => description

/-- An identifier that a listing has in a column. -/
inductive IdentifierRole where
  | subvolume
  | parent
  | defaultSubvolume
  deriving DecidableEq, Repr

/-- What an identifier is called in a message. -/
def IdentifierRole.name : IdentifierRole → String
  | .subvolume => "subvolume id"
  | .parent => "parent id"
  | .defaultSubvolume => "default subvolume id"

/-- What is wrong with a line of a listing. -/
inductive LineFault where
  | deviceOutsideFilesystem
  | missingUuid
  | emptyUuid
  | missingDevicePath
  | emptyDevicePath
  /-- Something that is no `KEY="value"` follows the pairs. -/
  | expectedPair
  /-- A key is empty or has a blank. -/
  | invalidKey (key : String)
  | unterminatedValue (key : String)
  | valueNotUtf8 (fault : Utf8.Fault)
  | missingField (key : String)
  | tooFewColumns (found : Nat)
  | invalidIdentifier (role : IdentifierRole) (column : String) (fault : Text.NumberFault)
  /-- A listing that names the default subvolume has no line. -/
  | emptyDefault
  | expectedId
  | missingId
  deriving DecidableEq, Repr

/-- The wording of a line fault. -/
def LineFault.message : LineFault → String
  | .deviceOutsideFilesystem => "device line outside of a filesystem record"
  | .missingUuid => "missing uuid"
  | .emptyUuid => "empty uuid"
  | .missingDevicePath => "missing device path"
  | .emptyDevicePath => "empty device path"
  | .expectedPair => "expected KEY=\"value\""
  | .invalidKey key => "invalid key '" ++ key ++ "'"
  | .unterminatedValue key => "unterminated value for " ++ key
  | .valueNotUtf8 fault => "escaped value is not UTF-8: " ++ fault.message
  | .missingField key => "missing " ++ key ++ " field"
  | .tooFewColumns found =>
    "expected at least 6 columns, found " ++ Text.writeWord found
  | .invalidIdentifier role column fault =>
    "invalid " ++ role.name ++ " '" ++ column ++ "': " ++ fault.message
  | .emptyDefault => "empty default subvolume output"
  | .expectedId => "expected 'ID <n>'"
  | .missingId => "missing subvolume id"

/-- What is wrong with the options of a mount record. -/
inductive MountFault where
  | missingSubvolumeId
  | invalidSubvolumeId (fault : Text.NumberFault)
  | missingSubvolumePath
  deriving DecidableEq, Repr

/-- The wording of a mount fault. -/
def MountFault.message : MountFault → String
  | .missingSubvolumeId => "missing subvolid option"
  | .invalidSubvolumeId fault => "invalid subvolid: " ++ fault.message
  | .missingSubvolumePath => "missing subvol option"

/-- What a subvolume was asked for by. -/
inductive SubvolumeKey where
  | byPath (path : String)
  | byId (id : Nat)
  deriving DecidableEq, Repr

/-- The wording of a subvolume key. -/
def SubvolumeKey.text : SubvolumeKey → String
  | .byPath path => path
  | .byId id => "id " ++ Text.writeWord id

/-- What is wrong with a configuration file. -/
inductive ConfigFault where
  | unreadable (path : String) (fault : SystemFault)
  | malformed
  deriving DecidableEq, Repr

/-- What can go wrong in a query or a change. -/
inductive TopologyError where
  | parse (line : String) (fault : LineFault)
  | malformedMount (line : String) (fault : MountFault)
  /-- A path does not begin with the path of its supposed parent. -/
  | pathMismatch (parent child : String)
  | unresolvablePath (path : String)
  | subvolumeNotFound (key : SubvolumeKey)
  | noMatch (criteria : String)
  | ambiguousMatch (count : Nat) (criteria : String)
  | commandFailed (command : String) (status : Int) (stderr : String)
  /-- A tool is neither configured nor on the search path. -/
  | toolNotFound (name : String)
  | config (fault : ConfigFault)
  | system (fault : SystemFault)
  deriving DecidableEq, Repr

/-- The text of an error. Of a malformed configuration it has only the beginning, as the place of
the fault is not kept. -/
def TopologyError.message : TopologyError → String
  | .parse line fault => "Parse error: " ++ fault.message ++ ": '" ++ line ++ "'"
  | .malformedMount line fault =>
    "Malformed mount record: " ++ fault.message ++ ": '" ++ line ++ "'"
  | .pathMismatch parent child => "Path '" ++ child ++ "' doesn't start with '" ++ parent ++ "'"
  | .unresolvablePath path =>
    "Failed to find a path to '" ++ path ++ "' through a mounted parent subvolume"
  | .subvolumeNotFound key => "Subvolume not found: " ++ key.text
  | .noMatch criteria => "No filesystem matches criteria " ++ criteria
  | .ambiguousMatch count criteria =>
    "Found " ++ Text.writeWord count ++ " filesystems matching criteria " ++ criteria
  | .commandFailed command status stderr =>
    "Command '" ++ command ++ "' exited with status " ++ toString status ++ ": " ++ stderr
  | .toolNotFound name => "Required tool not found: " ++ name
  | .config (.unreadable path fault) =>
    "Invalid configuration: cannot read " ++ path ++ ": " ++ fault.message
  | .config .malformed => "Invalid configuration"
  | .system fault => "IO error: " ++ fault.message

end BtrfsTopology
