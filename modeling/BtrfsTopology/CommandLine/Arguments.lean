import BtrfsTopology.Criteria
import BtrfsTopology.Filesystem.Change
import BtrfsTopology.Text.Decimal

/-!
# Arguments of the command line

A command line is a subcommand with options and words. An option is written `--name value` or
`--name=value`. The options for tools may stand on both sides of the subcommand, and there the inner
one counts; all others stand behind it, in any order with its words. Behind `--` every argument is a
word. An option is given at most once on each side, a value that follows its option begins with no
hyphen unless it is one, and a path is not empty.

An argument is a text here. On a host it may be any octets but NUL, so one that is not UTF-8 has no
value, and nothing is said of a command line with it. The paths of files, devices and tools may be
such arguments. Of the other words and values none may, as internal paths, identities and labels are
texts on a host, too.

## Main definitions

* `OptionName` — the options
* `Arguments.readOuter`, `Arguments.readInner` — the options and words of either side of the
  subcommand
* `Action` — what is to be done
* `Arguments` — a command line that was understood
* `Arguments.parse?` — reading a command line
-/

namespace BtrfsTopology

/-- The name of an option. -/
inductive OptionName where
  | config
  | btrfs
  | findmnt
  | uuid
  | label
  | device
  | id
  deriving DecidableEq, Repr

namespace OptionName

/-- The text of an option behind its hyphens. -/
def text : OptionName → String
  | .config => "config"
  | .btrfs => "btrfs"
  | .findmnt => "findmnt"
  | .uuid => "uuid"
  | .label => "label"
  | .device => "device"
  | .id => "id"

/-- The options for tools. -/
def forTools : List OptionName := [.config, .btrfs, .findmnt]

/-- The options that select a filesystem. -/
def forSelection : List OptionName := [.uuid, .label, .device]

/-- Whether the value of an option is a path. -/
def takesPath : OptionName → Bool
  | .config | .btrfs | .findmnt | .device => true
  | .uuid | .label | .id => false

/-- Whether a text may be the value of an option. -/
def admits (name : OptionName) (value : String) : Bool :=
  !(name.takesPath && value.isEmpty)

end OptionName

/-- What an argument is in its place. -/
inductive ArgumentKind where
  | word
  /-- The mark behind which every argument is a word. -/
  | endOfOptions
  | option (name : OptionName) (value : String)
  /-- An option whose value is the next argument. -/
  | pending (name : OptionName)
  | unknown
  deriving DecidableEq, Repr

namespace Arguments

/-- Whether an argument has a hyphen in front and something behind it. -/
def isHyphenated (argument : String) : Bool :=
  match argument.toList with
  | '-' :: _ :: _ => true
  | _ => false

/-- What an argument is among options of which some are known. -/
def kindOf (known : List OptionName) (argument : String) : ArgumentKind :=
  match argument.toList with
  | ['-', '-'] => .endOfOptions
  | '-' :: '-' :: rest =>
    match Text.cutFirst? ['='] rest with
    | some (name, value) =>
      match known.find? fun o => o.text.toList = name with
      | some o => .option o (String.ofList value)
      | none => .unknown
    | none =>
      match known.find? fun o => o.text.toList = rest with
      | some o => .pending o
      | none => .unknown
  | '-' :: _ :: _ => .unknown
  | _ => .word

/-- The options and words of one side of the subcommand. -/
structure Level where
  options : List (OptionName × String) := []
  words : List String := []

/-- The level with an option in front. -/
def Level.withOption (level : Level) (name : OptionName) (value : String) : Level :=
  { level with options := (name, value) :: level.options }

/-- The level with a word in front. -/
def Level.withWord (level : Level) (word : String) : Level :=
  { level with words := word :: level.words }

/-- The value of an option. -/
def Level.value? (level : Level) (name : OptionName) : Option String :=
  level.options.lookup name

/-- Whether no option is given twice and every value is admitted. -/
def Level.isValid (level : Level) : Bool :=
  level.options.all fun (name, value) =>
    name.admits value && level.options.countP (fun o => o.1 = name) = 1

/-- Reads the options in front of the subcommand; the rest begins with its name. -/
def readOuter (known : List OptionName) : List String → Option (Level × List String)
  | [] => some ({}, [])
  | argument :: rest =>
    match kindOf known argument, rest with
    | .word, rest => some ({}, argument :: rest)
    | .option name value, rest =>
      (readOuter known rest).map fun (level, rest) => (level.withOption name value, rest)
    | .pending name, value :: rest =>
      if isHyphenated value then none
      else (readOuter known rest).map fun (level, rest) => (level.withOption name value, rest)
    | .pending _, [] => none
    | .endOfOptions, _ => none
    | .unknown, _ => none

/-- Reads the options and words behind the subcommand. -/
def readInner (known : List OptionName) : List String → Option Level
  | [] => some {}
  | argument :: rest =>
    match kindOf known argument, rest with
    | .word, rest => (readInner known rest).map fun level => level.withWord argument
    | .option name value, rest =>
      (readInner known rest).map fun level => level.withOption name value
    | .pending name, value :: rest =>
      if isHyphenated value then none
      else (readInner known rest).map fun level => level.withOption name value
    | .pending _, [] => none
    | .endOfOptions, rest => some { words := rest }
    | .unknown, _ => none

end Arguments

/-- What a command line asks for. -/
inductive Action where
  | list
  | report (criteria : Criteria)
  /-- Print where an internal path is reached. -/
  | resolve (criteria : Criteria) (path : String)
  /-- Print the subvolume at an internal path or closest above it. -/
  | nearest (criteria : Criteria) (path : String)
  | lookup (criteria : Criteria) (path : VfsPath)
  | carryOut (criteria : Criteria) (change : Change)
  deriving DecidableEq, Repr

/-- A command line that was understood. -/
structure Arguments where
  config : Option String
  btrfs : Option VfsPath
  findmnt : Option VfsPath
  action : Action
  deriving DecidableEq, Repr

namespace Arguments

/-- The criteria that the options give. -/
def Level.criteria (level : Level) : Criteria where
  uuid := level.value? .uuid
  label := level.value? .label
  device := (level.value? .device).map VfsPath.mk

/-- The subcommands. -/
inductive Subcommand where
  | list
  | report
  | resolve
  | nearest
  | lookup
  | create
  | delete
  | snapshot
  | setDefault
  deriving DecidableEq, Repr

/-- The subcommand that a word names. -/
def Subcommand.ofText? : String → Option Subcommand
  | "list" => some .list
  | "show" => some .report
  | "resolve" => some .resolve
  | "nearest" => some .nearest
  | "lookup" => some .lookup
  | "create" => some .create
  | "delete" => some .delete
  | "snapshot" => some .snapshot
  | "set-default" => some .setDefault
  | _ => none

/-- The options that may stand behind a subcommand. -/
def Subcommand.options : Subcommand → List OptionName
  | .list => OptionName.forTools
  | .setDefault => OptionName.forTools ++ OptionName.forSelection ++ [.id]
  | _ => OptionName.forTools ++ OptionName.forSelection

/-- What a subcommand with its options and words asks for. -/
def Subcommand.action? (subcommand : Subcommand) (level : Level) : Option Action :=
  let criteria := level.criteria
  match subcommand, level.words, level.value? .id with
  | .list, [], _ => some .list
  | .report, [], _ => some (.report criteria)
  | .resolve, [path], _ => some (.resolve criteria path)
  | .nearest, [path], _ => some (.nearest criteria path)
  | .lookup, [path], _ => if path.isEmpty then none else some (.lookup criteria ⟨path⟩)
  | .create, [path], _ => some (.carryOut criteria (.create path))
  | .delete, [path], _ => some (.carryOut criteria (.delete path))
  | .snapshot, [source, destination], _ =>
    some (.carryOut criteria (.snapshot source destination))
  | .setDefault, [path], none => some (.carryOut criteria (.setDefault path))
  | .setDefault, [], some id =>
    match Text.readWord id.toList with
    | .ok id => some (.carryOut criteria (.setDefaultId id))
    | .error _ => none
  | _, _, _ => none

/-- Reads a command line. -/
def parse? (arguments : List String) : Option Arguments := do
  let (outer, rest) ← readOuter OptionName.forTools arguments
  let name :: rest := rest | none
  let subcommand ← Subcommand.ofText? name
  let inner ← readInner subcommand.options rest
  let action ← subcommand.action? inner
  if outer.isValid && inner.isValid then
    let value? (name : OptionName) := (inner.value? name).or (outer.value? name)
    return {
      config := value? .config
      btrfs := (value? .btrfs).map VfsPath.mk
      findmnt := (value? .findmnt).map VfsPath.mk
      action }
  else none

end Arguments

end BtrfsTopology
