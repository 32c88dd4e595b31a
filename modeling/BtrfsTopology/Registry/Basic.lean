import BtrfsTopology.Criteria
import BtrfsTopology.Registry.Discovery

/-!
# The registry of filesystems

The registry discovers the filesystems of the host when it is first asked for one, and answers from
what it found until it is invalidated. A discovery that fails leaves nothing behind.

## Main definitions

* `Registry` — not loaded, or loaded with the filesystems that were found
* `Registry.discoverAll`, `Registry.filesystems` — all filesystems
* `Registry.get`, `Registry.find`, `Registry.findByDevice` — looking a filesystem up
* `Registry.within` — an update of one filesystem in its place
-/

namespace BtrfsTopology

/-- What is known of the filesystems of the host. -/
inductive Registry where
  /-- Nothing; the next query discovers them. -/
  | notLoaded
  | loaded (filesystems : FilesystemMap)
  deriving DecidableEq, Repr

/-- Whether a filesystem satisfies all criteria that are given. -/
def Criteria.admits (c : Criteria) (fs : Filesystem) : Bool :=
  c.uuid.all (fun uuid => fs.uuid = uuid) && c.label.all (fun label => fs.label = some label) &&
    c.device.all fs.hasDevice

namespace Registry

/-- Whether the filesystems have been discovered. -/
def isLoaded : Registry → Bool
  | .notLoaded => false
  | .loaded _ => true

/-- The identities of the filesystems, in order. -/
def uuids? : Registry → Option (List String)
  | .notLoaded => none
  | .loaded filesystems => some filesystems.keys

/-- All filesystems of the host, discovered if need be. -/
def discoverAll : Update Registry FilesystemMap := do
  match ← get with
  | .loaded filesystems => return filesystems
  | .notLoaded =>
    let filesystems ← Query.discover
    set (Registry.loaded filesystems)
    return filesystems

/-- Forgets what was discovered. -/
def invalidate : Registry → Registry :=
  fun _ => .notLoaded

/-- The filesystems of the host in the order of their identities. -/
def filesystems : Update Registry (List Filesystem) := do
  return (← discoverAll).values

/-- The filesystem with an identity. -/
def get (uuid : String) : Update Registry (Option Filesystem) := do
  return (← discoverAll).get? uuid

/-- The criteria with the links of the device followed. -/
def resolveCriteria (c : Criteria) : Query Criteria := do
  match c.device with
  | none => return c
  | some device => return { c with device := some (← Query.resolveDevice device) }

/-- The single filesystem among those given that satisfies the criteria. Only its identity is kept,
under which it is looked up again. -/
def select (filesystems : FilesystemMap) (c : Criteria) : Except TopologyError Filesystem :=
  match (filesystems.values.filter c.admits).map Filesystem.uuid with
  | [uuid] =>
    match filesystems.get? uuid with
    | some fs => .ok fs
    | none => .error (.noMatch c.describe)
  | [] => .error (.noMatch c.describe)
  | several => .error (.ambiguousMatch several.length c.describe)

/-- The single filesystem that satisfies the criteria. -/
def find (c : Criteria) : Update Registry Filesystem := do
  let c ← resolveCriteria c
  Query.ofExcept (select (← discoverAll) c)

/-- The first filesystem, in the order of the identities, that lies on a device. -/
def findByDevice (device : VfsPath) : Update Registry (Option Filesystem) := do
  let device ← Query.resolveDevice device
  return (← discoverAll).values.find? fun fs => fs.hasDevice device

/-- The filesystem with an identity, if it has been discovered. -/
def entry? : Registry → String → Option Filesystem
  | .notLoaded, _ => none
  | .loaded filesystems, uuid => filesystems.get? uuid

/-- The registry with another filesystem in the place of one that is in it. -/
def replace : Registry → String → Filesystem → Registry
  | .notLoaded, _, _ => .notLoaded
  | .loaded filesystems, uuid, fs => .loaded (filesystems.adjust (fun _ => fs) uuid)

/-- Updates a discovered filesystem in its place; without one nothing is done. -/
def within {α : Type} (uuid : String) (update : Update Filesystem α) :
    Update Registry (Option α) :=
  ExceptT.mk fun registry =>
    match registry.entry? uuid with
    | none => pure (.ok none, registry)
    | some fs => do
      let (result, fs) ← update.run.run fs
      return (result.map some, registry.replace uuid fs)

end Registry

end BtrfsTopology
