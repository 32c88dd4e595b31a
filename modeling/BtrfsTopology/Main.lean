import BtrfsTopology.CommandLine.Run

/-!
# The program

The program starts no process itself: whoever runs it carries out the commands it asks for. A
request is a line on standard output, `run` and the words of the command as a JSON list. The reply
on standard input is a line, either `absent` when the command cannot be started or three words: the
exit status or `signal`, and how many octets were printed and complained with; these octets follow.
What the program prints in the end stands behind a line `exit` with its status.
-/

namespace BtrfsTopology.Program

/-- Asks for a command to be run. -/
def request (invocation : Invocation) : IO Unit := do
  let words := invocation.program.text :: invocation.arguments
  let stdout ← IO.getStdout
  stdout.putStrLn ("run " ++ (Json.list (words.map Json.text)).render)
  stdout.flush

/-- Reads so many octets, fewer when the input ends. -/
def readOctets (stream : IO.FS.Stream) (count : Nat) : IO Utf8.Octets := do
  let mut octets : Array UInt8 := #[]
  for _ in [0:count] do
    octets := octets ++ (← stream.read 1).data
  return octets.toList

/-- The exit status in a reply, which none is when a signal ended the command. -/
def readStatus (word : List Char) : Option (Option Int) :=
  if word = "signal".toList then some none
  else
    match Text.readWord word with
    | .ok status => some (some status)
    | .error _ => none

/-- Reads the reply to a request. -/
def readReply : IO (Except SystemFault Finished) := do
  let stdin ← IO.getStdin
  let line ← stdin.getLine
  match Text.words line.toList with
  | [status, printed, complained] =>
    match readStatus status, Text.readWord printed, Text.readWord complained with
    | some status, .ok printed, .ok complained =>
      let stdout ← readOctets stdin printed
      let stderr ← readOctets stdin complained
      return .ok ⟨status, stdout, stderr⟩
    | _, _, _ => return .error (.other "malformed reply")
  | _ => return .error .notFound

/-- Runs a command and waits for its end. -/
def launch (invocation : Invocation) : IO (Except SystemFault Finished) := do
  request invocation
  readReply

/-- Follows the links of a device, which stays as it is when that fails. -/
def resolve (device : VfsPath) : IO VfsPath := do
  try
    return ⟨(← IO.FS.realPath device.text).toString⟩
  catch _ => return device

/-- The system fault of a failed attempt to read a file. -/
def faultOf (error : IO.Error) : SystemFault :=
  match error with
  | .noFileOrDirectory .. => .notFound
  | .inappropriateType _ code details =>
    if code = 21 then .isDirectory else describe details code
  | .permissionDenied _ code details => describe details code
  | _ => .other (toString error)
where
  /-- A fault in the words of the system. -/
  describe (details : String) (code : UInt32) : SystemFault :=
    .other (details ++ " (os error " ++ Text.writeWord code.toNat ++ ")")

/-- The text of a file. -/
def readText (path : String) : IO (Except SystemFault String) := do
  try
    let octets ← IO.FS.readBinFile path
    match Utf8.decode octets.data.toList with
    | .ok text => return .ok (String.ofList text)
    | .error _ => return .error .notText
  catch error => return .error (faultOf error)

/-- Where the search path has a tool. -/
def findTool (name : String) : IO (Option VfsPath) := do
  let searchPath := (← IO.getEnv "PATH").getD ""
  for directory in searchPath.toList.splitOn ':' do
    let path := VfsPath.join ⟨String.ofList directory⟩ name
    try
      let _ ← IO.FS.Handle.mk path.text .read
      return some path
    catch _ => continue
  return none

/-- What the program finds around it. Only one file is ever read: the one that the arguments name,
or else the one that the environment names. -/
def environment (arguments : List String) : IO Environment := do
  let variableValue ← IO.getEnv CommandLine.configVariable
  let named := (Arguments.parse? arguments).bind Arguments.config
  let text ←
    match named.or variableValue with
    | some path => readText path
    | none => pure (.error .notFound)
  let btrfs ← findTool "btrfs"
  let findmnt ← findTool "findmnt"
  return {
    configVariable := variableValue
    fileText := fun _ => text
    onPath := fun name => if name = "btrfs" then btrfs else findmnt }

end BtrfsTopology.Program

open BtrfsTopology in
/-- Runs the command line it is given. -/
def main (arguments : List String) : IO UInt32 := do
  let env ← Program.environment arguments
  let verdict ← CommandLine.execute env Program.launch Program.resolve arguments
  IO.println ("exit " ++ Text.writeWord verdict.status)
  IO.print verdict.stdout
  IO.eprint verdict.stderr
  return verdict.status.toUInt32
