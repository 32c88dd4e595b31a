import BtrfsTopology.Error
import BtrfsTopology.Text.Blank
import BtrfsTopology.VfsPath

/-!
# Requests to the host

All that the library learns of the host and does to it goes through a few requests: run a tool that
lists something, run a tool that changes something, follow the links of a device.

## Main definitions

* `Inspection` — the commands that list something
* `Mutation` — the commands that change something
* `CommandOutput` — what a command that ran left behind
* `Request`, `Request.Reply` — what can be asked, and what is answered
-/

namespace BtrfsTopology

/-- A command that lists something. -/
inductive Inspection where
  | filesystems
  | mounts
  | subvolumes (mount : VfsPath)
  | defaultSubvolume (mount : VfsPath)
  deriving DecidableEq, Repr

/-- A command that changes something. -/
inductive Mutation where
  | create (path : VfsPath)
  | delete (path : VfsPath)
  | snapshot (source destination : VfsPath)
  | setDefault (mount : VfsPath) (id : Nat)
  deriving DecidableEq, Repr

/-- The words behind the tool's name in an inspection. -/
def Inspection.arguments : Inspection → List String
  | .filesystems => ["filesystem", "show", "-d"]
  | .mounts => ["-t", "btrfs", "-nvP"]
  | .subvolumes mount => ["subvolume", "list", "-tap", mount.text]
  | .defaultSubvolume mount => ["subvolume", "get-default", mount.text]

/-- The words behind the tool's name in a mutation. -/
def Mutation.arguments : Mutation → List String
  | .create path => ["subvolume", "create", path.text]
  | .delete path => ["subvolume", "delete", path.text]
  | .snapshot source destination => ["subvolume", "snapshot", source.text, destination.text]
  | .setDefault mount id => ["subvolume", "set-default", Text.writeWord id, mount.text]

/-- What a command that ran left behind. -/
structure CommandOutput where
  command : String
  /-- The exit status; −1 when a signal ended the command. -/
  status : Int
  stdout : String
  stderr : String
  deriving DecidableEq, Repr

namespace CommandOutput

/-- Whether the command ended well. -/
def succeeded (output : CommandOutput) : Bool :=
  output.status = 0

/-- The error that a command ended with; outer blanks of its complaint are dropped. -/
def failure (output : CommandOutput) : TopologyError :=
  .commandFailed output.command output.status
    (String.ofList (Text.trim output.stderr.toList))

/-- What a command printed that ended well. -/
def printed (output : CommandOutput) : Except TopologyError String :=
  if output.succeeded then .ok output.stdout else .error output.failure

/-- What a change comes to whose command left this behind. -/
def acknowledged (output : CommandOutput) : Except TopologyError Unit :=
  if output.succeeded then .ok () else .error output.failure

end CommandOutput

/-- What the host can be asked. -/
inductive Request where
  | inspect (query : Inspection)
  | mutate (change : Mutation)
  /-- Follow the links of a device; one that cannot be followed stays as it is. -/
  | resolveDevice (device : VfsPath)
  deriving DecidableEq, Repr

/-- What a request is answered with. -/
def Request.Reply : Request → Type
  | .inspect _ => Except TopologyError CommandOutput
  | .mutate _ => Except TopologyError Unit
  | .resolveDevice _ => VfsPath

end BtrfsTopology
