import BtrfsTopology.CommandLine.Arguments
import BtrfsTopology.Configuration.Basic
import BtrfsTopology.Filesystem.Lookup
import BtrfsTopology.Registry.Basic

/-!
# Running a command line

A command line is read, the tools are located, the filesystems are discovered and the one that the
criteria select is reported, asked or changed. Nothing is printed unless all of that succeeds.

## Main definitions

* `Failure`, `Failure.report` — why a run fails, and what it prints then
* `Action.perform` — the line that an action prints
* `Environment` — what a run finds around it
* `Verdict` — how a run ends
* `CommandLine.prepare` — the tools that a run uses
* `Action.execute`, `Arguments.execute`, `CommandLine.execute` — a run from its action on, from its
  arguments on, and as a whole
-/

namespace BtrfsTopology

/-- Why a run fails after its command line has been understood. -/
inductive Failure where
  | topology (error : TopologyError)
  | locating (error : TopologyError)
  /-- A path lies in no mount of the selected filesystem. -/
  | outsideMounts (path : VfsPath)
  deriving DecidableEq, Repr

namespace Failure

/-- What failed. -/
def message : Failure → String
  | .topology error => error.message
  | .locating _ => "failed to locate btrfs tools"
  | .outsideMounts path => path.text ++ " is not inside a mount of this filesystem"

/-- What it was caused by, where that is not the failure itself. -/
def cause? : Failure → Option String
  | .topology (.system fault) => some fault.message
  | .locating error => some error.message
  | _ => none

/-- What a failed run prints. -/
def report (failure : Failure) : String :=
  "Error: " ++ failure.message ++ "\n" ++
    match failure.cause? with
    | some cause => "\nCaused by:\n    " ++ cause ++ "\n"
    | none => ""

end Failure

/-- The result of a mutation, as it is printed. -/
def Mutation.toJson : Mutation → Json
  | .create path => .record [("path", .text path.text), ("success", .bool true)]
  | .delete path => .record [("path", .text path.text), ("success", .bool true)]
  | .snapshot source destination =>
    .record
      [("dest", .text destination.text), ("source", .text source.text), ("success", .bool true)]
  | .setDefault _ id => .record [("id", .number id), ("success", .bool true)]

/-- A subvolume as an answer, as it is printed. -/
def Subvolume.answerJson (s : Subvolume) : Json :=
  .record [("id", .number s.id), ("path", .text s.path)]

/-- A dialogue that ends with what is printed, or fails. -/
abbrev Task := ExceptT Failure Dialogue

/-- A query as a part of a task. -/
def Task.ofQuery {α : Type} (query : Query α) : Task α :=
  ExceptT.mk do return (← query.run).mapError .topology

instance : MonadLift Query Task := ⟨Task.ofQuery⟩

namespace Action

/-- The filesystem that the criteria select in a fresh registry. -/
def selected (criteria : Criteria) : Query Filesystem :=
  ExceptT.mk do return (← (Registry.find criteria).run.run .notLoaded).1

/-- What a change of the selected filesystem comes to. -/
def changed (criteria : Criteria) (change : Change) : Query Mutation := do
  let fs ← selected criteria
  ExceptT.mk do return (← (Filesystem.carryOut change).run.run fs).1

/-- The line that an action prints. -/
def perform : Action → Task String
  | .list => do
    return (Json.list ((← Query.discover).values.map Filesystem.toJson)).render
  | .report criteria => do
    return (← selected criteria).toJson.render
  | .resolve criteria path => do
    let fs ← selected criteria
    return (← Query.ofExcept (fs.subvolumes.childPath path)).text
  | .nearest criteria path => do
    return ((← selected criteria).subvolumes.nearest path).answerJson.render
  | .lookup criteria path => do
    match (← selected criteria).lookup? path with
    | some s => return s.answerJson.render
    | none => throw (.outsideMounts path)
  | .carryOut criteria change => do
    return (← changed criteria change).toJson.render

end Action

/-- What a run finds around it. -/
structure Environment where
  /-- The value of the variable that names a configuration file. -/
  configVariable : Option String
  fileText : String → Except SystemFault String
  /-- Where the search path has a tool. -/
  onPath : String → Option VfsPath

/-- How a run ends. -/
inductive Verdict where
  | misused
  | failed (failure : Failure)
  | printed (line : String)
  deriving DecidableEq, Repr

namespace Verdict

/-- How a run ends whose action has a result. -/
def ofResult : Except Failure String → Verdict
  | .ok line => .printed line
  | .error failure => .failed failure

/-- The exit status of a run. -/
def status : Verdict → Nat
  | .misused => 2
  | .failed _ => 1
  | .printed _ => 0

/-- What a run prints. -/
def stdout : Verdict → String
  | .printed line => line ++ "\n"
  | _ => ""

/-- What a run complains about. -/
def stderr : Verdict → String
  | .misused => "Usage: btrfs-topology [OPTIONS] <COMMAND>\n"
  | .failed failure => failure.report
  | .printed _ => ""

end Verdict

namespace CommandLine

/-- The name of the variable that names a configuration file. -/
def configVariable : String := "STORAGE_BTRFS_CONFIG"

/-- The configuration that the arguments and the environment make: a file that the arguments name,
or else one that the environment names, and then what the arguments say themselves. -/
def configure (env : Environment) (arguments : Arguments) : Except TopologyError ToolsConfig := do
  let config ←
    match arguments.config with
    | some path => ToolsConfig.load env.fileText path
    | none => ToolsConfig.ofVariable env.fileText env.configVariable
  return ⟨arguments.btrfs.or config.btrfs, arguments.findmnt.or config.findmnt⟩

/-- The tools that a run uses. -/
def prepare (env : Environment) (arguments : Arguments) : Except Failure Tools :=
  match configure env arguments with
  | .error error => .error (.topology error)
  | .ok config =>
    match config.locate env.onPath with
    | .error error => .error (.locating error)
    | .ok tools => .ok tools

end CommandLine

section Runs

variable {m : Type → Type} [Monad m] (env : Environment)
  (launch : Invocation → m (Except SystemFault Finished)) (resolve : VfsPath → m VfsPath)

/-- Performs an action with tools, given a way to start programs and one to follow the links of a
device. -/
def Action.execute (tools : Tools) (action : Action) : m Verdict := do
  return .ofResult (← action.perform.run.lead (tools.answer launch resolve))

/-- Prepares the tools for arguments and performs the action. -/
def Arguments.execute (arguments : Arguments) : m Verdict :=
  match CommandLine.prepare env arguments with
  | .error failure => return .failed failure
  | .ok tools => arguments.action.execute launch resolve tools

/-- Runs a command line. -/
def CommandLine.execute (words : List String) : m Verdict :=
  match Arguments.parse? words with
  | none => return .misused
  | some arguments => arguments.execute env launch resolve

end Runs

end BtrfsTopology
