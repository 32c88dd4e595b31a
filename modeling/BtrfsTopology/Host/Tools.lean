import BtrfsTopology.Host.Dialogue

/-!
# Answering requests with tools

A host answers requests by running two tools, `btrfs` and `findmnt`. What they print is read as
UTF-8, broken parts replaced. A command with a NUL character in a word is not started.

## Main definitions

* `Tools` — where the tools are
* `Invocation` — a program and the words it is started with
* `Finished` — how a program ended
* `Tools.answer` — the reply to a request, given a way to start programs
-/

namespace BtrfsTopology

/-- Where the tools are. -/
structure Tools where
  btrfs : VfsPath
  findmnt : VfsPath
  deriving DecidableEq, Repr

/-- A program and the words it is started with. -/
structure Invocation where
  program : VfsPath
  arguments : List String
  deriving DecidableEq, Repr

/-- The words of an invocation with one space between each two. -/
def Invocation.describe (invocation : Invocation) : String :=
  " ".intercalate (invocation.program.text :: invocation.arguments)

/-- Whether some word of an invocation has a NUL character. -/
def Invocation.hasNul (invocation : Invocation) : Bool :=
  (invocation.program.text :: invocation.arguments).any fun word =>
    word.toList.contains (Char.ofNat 0)

/-- How a program ended. -/
structure Finished where
  /-- Its exit status; none when a signal ended it. -/
  status : Option Int
  stdout : Utf8.Octets
  stderr : Utf8.Octets
  deriving DecidableEq, Repr

/-- What an invocation that ended left behind. -/
def Invocation.output (invocation : Invocation) (finished : Finished) : CommandOutput where
  command := invocation.describe
  status := finished.status.getD (-1)
  stdout := String.ofList (Utf8.decodeLossy finished.stdout)
  stderr := String.ofList (Utf8.decodeLossy finished.stderr)

namespace Tools

/-- How an inspection is run. -/
def inspection (tools : Tools) (query : Inspection) : Invocation :=
  match query with
  | .mounts => ⟨tools.findmnt, query.arguments⟩
  | _ => ⟨tools.btrfs, query.arguments⟩

/-- How a mutation is run. -/
def mutation (tools : Tools) (change : Mutation) : Invocation :=
  ⟨tools.btrfs, change.arguments⟩

variable {m : Type → Type} [Monad m]

/-- Runs an invocation, unless it cannot be started. -/
def start (launch : Invocation → m (Except SystemFault Finished)) (invocation : Invocation) :
    m (Except TopologyError CommandOutput) := do
  if invocation.hasNul then return .error (.system .nulInCommand)
  else
    match ← launch invocation with
    | .ok finished => return .ok (invocation.output finished)
    | .error fault => return .error (.system fault)

/-- Answers a request, given a way to start programs and one to follow the links of a device. -/
def answer (tools : Tools) (launch : Invocation → m (Except SystemFault Finished))
    (resolve : VfsPath → m VfsPath) (request : Request) : m request.Reply :=
  match request with
  | .inspect query => start launch (tools.inspection query)
  | .mutate change => do
    let result ← start launch (tools.mutation change)
    return result.bind CommandOutput.acknowledged
  | .resolveDevice device => resolve device

end Tools

end BtrfsTopology
