import BtrfsTopology.Configuration.Settings
import BtrfsTopology.Host.Tools
import BtrfsTopology.Text.Blank

/-!
# Configuration

A configuration says where the tools are. A tool of which it says nothing is looked up on the search
path.

## Main definitions

* `ToolsConfig` — where the tools are, as far as it is configured
* `ToolsConfig.parse`, `ToolsConfig.load`, `ToolsConfig.ofVariable` — reading a configuration
* `ToolsConfig.locate` — where the tools are in the end
-/

namespace BtrfsTopology

/-- Where the tools are, as far as it is configured. -/
structure ToolsConfig where
  btrfs : Option VfsPath := none
  findmnt : Option VfsPath := none
  deriving DecidableEq, Repr

namespace ToolsConfig

/-- Adds a setting. There is one for each tool, to be made once. -/
def set (config : ToolsConfig) (key value : List Char) : Option ToolsConfig :=
  if key = "btrfs".toList ∧ config.btrfs = none then
    some { config with btrfs := some ⟨String.ofList value⟩ }
  else if key = "findmnt".toList ∧ config.findmnt = none then
    some { config with findmnt := some ⟨String.ofList value⟩ }
  else none

/-- The configuration that settings make. -/
def ofSettings (settings : List (List Char × List Char)) : Option ToolsConfig :=
  settings.foldlM (fun config (key, value) => config.set key value) {}

/-- Reads the text of a configuration file. -/
def parse (text : String) : Except TopologyError ToolsConfig :=
  match (Toml.readDocument text.toList).bind ofSettings with
  | some config => .ok config
  | none => .error (.config .malformed)

/-- Reads a configuration file, given a way to read files. -/
def load (fileText : String → Except SystemFault String) (path : String) :
    Except TopologyError ToolsConfig :=
  match fileText path with
  | .ok text => parse text
  | .error fault => .error (.config (.unreadable path fault))

/-- Reads the configuration file that a variable names; one that is not set or blank names none. -/
def ofVariable (fileText : String → Except SystemFault String) (variableValue : Option String) :
    Except TopologyError ToolsConfig :=
  match variableValue with
  | some path => if Text.isBlankText path.toList then .ok {} else load fileText path
  | none => .ok {}

/-- Where a tool is: where it is configured to be, or else where the search path has it. -/
def locateTool (onPath : String → Option VfsPath) (configured : Option VfsPath) (name : String) :
    Except TopologyError VfsPath :=
  match configured, onPath name with
  | some path, _ => .ok path
  | none, some path => .ok path
  | none, none => .error (.toolNotFound name)

/-- Where `btrfs` is. -/
def locateBtrfs (config : ToolsConfig) (onPath : String → Option VfsPath) :
    Except TopologyError VfsPath :=
  locateTool onPath config.btrfs "btrfs"

/-- Where `findmnt` is. -/
def locateFindmnt (config : ToolsConfig) (onPath : String → Option VfsPath) :
    Except TopologyError VfsPath :=
  locateTool onPath config.findmnt "findmnt"

/-- Where both tools are. -/
def locate (config : ToolsConfig) (onPath : String → Option VfsPath) :
    Except TopologyError Tools := do
  return ⟨← config.locateBtrfs onPath, ← config.locateFindmnt onPath⟩

end ToolsConfig

end BtrfsTopology
