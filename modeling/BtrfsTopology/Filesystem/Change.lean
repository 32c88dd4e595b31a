import BtrfsTopology.Filesystem.Refresh
import BtrfsTopology.SubvolumeTree.Resolution

/-!
# Changing a filesystem

A change names subvolumes by internal paths. It is planned first: every path is resolved to one of
the mounted file tree, without asking the host. The planned mutation is then carried out, and the
filesystem is refreshed.

## Main definitions

* `Change` — what can be changed
* `Filesystem.plan` — the mutation that makes a change
* `Filesystem.carryOut` — planning, mutating and refreshing
-/

namespace BtrfsTopology

/-- A change, in internal paths. -/
inductive Change where
  | create (path : String)
  | delete (path : String)
  | snapshot (source destination : String)
  | setDefault (path : String)
  | setDefaultId (id : Nat)
  deriving DecidableEq, Repr

namespace Filesystem

/-- The subvolume at an internal path, which has to be there. -/
def require (fs : Filesystem) (path : String) : Except TopologyError Subvolume :=
  match fs.subvolumes.atPath? path with
  | some s => .ok s
  | none => .error (.subvolumeNotFound (.byPath (InternalPath.normalize path)))

/-- Where the subvolume at an internal path is copied from: its own mount, if it has one. -/
def planSource (fs : Filesystem) (path : String) : Except TopologyError VfsPath := do
  let s ← fs.require path
  match fs.subvolumes.mountedPath? s.id with
  | some source => return source
  | none => throw (.unresolvablePath (InternalPath.normalize path))

/-- The mutation that makes a known subvolume the default; any mount serves for it. -/
def planDefault (fs : Filesystem) (id : Nat) : Except TopologyError Mutation :=
  match fs.subvolumes.get? id, fs.handle? with
  | none, _ => .error (.subvolumeNotFound (.byId id))
  | some s, none => .error (.unresolvablePath s.path)
  | some _, some mount => .ok (.setDefault mount id)

/-- The mutation that makes a change. -/
def plan (fs : Filesystem) : Change → Except TopologyError Mutation
  | .create path => return .create (← fs.subvolumes.childPath path)
  | .delete path => do
    let _ ← fs.require path
    return .delete (← fs.subvolumes.childPath path)
  | .snapshot source destination => do
    let source ← fs.planSource source
    return .snapshot source (← fs.subvolumes.childPath destination)
  | .setDefault path => do
    let s ← fs.require path
    fs.planDefault s.id
  | .setDefaultId id => fs.planDefault id

/-- Makes a change and learns the filesystem anew. The mutation that was made is the result. -/
def carryOut (change : Change) : Update Filesystem Mutation := do
  let mutation ← Query.ofExcept ((← get).plan change)
  Query.mutate mutation
  refresh
  return mutation

end Filesystem

end BtrfsTopology
