import BtrfsTopology.Filesystem.Refresh
import BtrfsTopology.Listing.Filesystems

/-!
# Discovery

All filesystems of the host are built from one listing of filesystems and one of mounts; the
subvolumes and the default of those that are mounted are asked for one filesystem after another.

## Main definitions

* `FilesystemMap` — filesystems by identity
* `Query.discover` — the filesystems of the host
-/

namespace BtrfsTopology

/-- Filesystems by their identity. -/
abbrev FilesystemMap := OrderedMap String Filesystem

/-- The filesystems that the host lists. -/
def Query.filesystems : Query (List ListedFilesystem) := do
  let output ← Query.inspect .filesystems
  Query.ofExcept (output.printed.bind Listing.readFilesystems)

/-- A listed filesystem with those of the given mounts that are its own. -/
def ListedFilesystem.mounted (listed : ListedFilesystem) (mountpoints : List Mountpoint) :
    Filesystem :=
  (Filesystem.new listed.uuid listed.label listed.devices).updateMountpoints mountpoints

/-- A listed filesystem with all its parts. -/
def Query.load (mountpoints : List Mountpoint) (listed : ListedFilesystem) : Query Filesystem :=
  Update.final
    (do Filesystem.refreshSubvolumes; Filesystem.refreshDefault)
    (listed.mounted mountpoints)

/-- Loads listed filesystems into a map. Of those with the same identity the last stays. -/
def Query.loadAll (mountpoints : List Mountpoint) :
    List ListedFilesystem → FilesystemMap → Query FilesystemMap
  | [], loaded => return loaded
  | listed :: rest, loaded => do
    let fs ← Query.load mountpoints listed
    Query.loadAll mountpoints rest (loaded.insert fs.uuid fs)

/-- The filesystems of the host. -/
def Query.discover : Query FilesystemMap := do
  let listed ← Query.filesystems
  let mountpoints ← Query.mounts
  Query.loadAll mountpoints listed .empty

end BtrfsTopology
