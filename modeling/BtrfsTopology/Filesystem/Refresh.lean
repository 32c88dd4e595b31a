import BtrfsTopology.Filesystem.Basic
import BtrfsTopology.Host.Dialogue
import BtrfsTopology.Listing.Mounts
import BtrfsTopology.Listing.Subvolumes

/-!
# Refreshing a filesystem

A refresh learns the mounts first, as the other questions are asked through a live mount; without
one they are not asked, and what was known stays. Each part is replaced once its listing has been
read, so that a refresh that fails keeps the parts it got to and leaves the rest alone.

## Main definitions

* `Query.mounts` — the live mounts of the host
* `Filesystem.refreshMounts`, `Filesystem.refreshSubvolumes`, `Filesystem.refreshDefault` — learning
  one part anew
* `Filesystem.refresh` — learning all parts anew
-/

namespace BtrfsTopology

/-- Whether the tool reports by its status that nothing is mounted: it ends with 1 and prints
nothing. -/
def CommandOutput.reportsNoMounts (output : CommandOutput) : Bool :=
  output.status = 1 && Text.isBlankText output.stdout.toList &&
    Text.isBlankText output.stderr.toList

/-- The live mounts of the host. -/
def Query.mounts : Query (List Mountpoint) := do
  let output ← Query.inspect .mounts
  if output.reportsNoMounts then return []
  else Query.ofExcept (output.printed.bind Listing.readMounts)

/-- The subvolumes of the filesystem mounted at a path. -/
def Query.subvolumes (mount : VfsPath) : Query (List Subvolume) := do
  let output ← Query.inspect (.subvolumes mount)
  Query.ofExcept (output.printed.bind Listing.readSubvolumes)

/-- The identifier of the default subvolume of the filesystem mounted at a path. -/
def Query.defaultSubvolume (mount : VfsPath) : Query Nat := do
  let output ← Query.inspect (.defaultSubvolume mount)
  Query.ofExcept (output.printed.bind Listing.readDefault)

namespace Filesystem

/-- The path through which the filesystem is queried: that of its first mount. -/
def handle? (fs : Filesystem) : Option VfsPath :=
  fs.mounts.first?.map Mountpoint.path

/-- Learns the mounts anew. -/
def refreshMounts : Update Filesystem Unit := do
  let mountpoints ← Query.mounts
  modify (·.updateMountpoints mountpoints)

/-- Learns the subvolumes anew if the filesystem is mounted. -/
def refreshSubvolumes : Update Filesystem Unit := do
  match (← get).handle? with
  | none => return ()
  | some mount =>
    let subvolumes ← Query.subvolumes mount
    modify (·.updateSubvolumes subvolumes)

/-- Learns the default subvolume anew if the filesystem is mounted. -/
def refreshDefault : Update Filesystem Unit := do
  match (← get).handle? with
  | none => return ()
  | some mount =>
    let defaultId ← Query.defaultSubvolume mount
    modify ({ · with defaultId })

/-- Learns the mounts, then the subvolumes, then the default subvolume anew. -/
def refresh : Update Filesystem Unit := do
  -- The later questions go through a mount that was just learned.
  refreshMounts
  refreshSubvolumes
  refreshDefault

end Filesystem

end BtrfsTopology
