import BtrfsTopology.MountTable
import BtrfsTopology.Subvolume

/-!
# Subvolume trees

The subvolumes of one filesystem by identifier. The top-level subvolume is always there, stored
apart from the others, with the path `/` and no parent whatever a listing says of it.

## Main definitions

* `SubvolumeTree` — the top-level subvolume and the others
* `SubvolumeTree.ofSubvolumes` — the tree of a listing
* `SubvolumeTree.get?`, `SubvolumeTree.findPath?`, `SubvolumeTree.children` — looking up
* `SubvolumeTree.toList` — the subvolumes, top level first, then by identifier
* `SubvolumeTree.attach` — the tree with the mounts of a table
-/

namespace BtrfsTopology

/-- The subvolumes of one filesystem. -/
structure SubvolumeTree where
  root : Subvolume
  /-- All others by identifier. -/
  others : OrderedMap Nat Subvolume
  deriving DecidableEq, Repr

namespace SubvolumeTree

/-- The tree of the top-level subvolume alone. -/
def bare : SubvolumeTree :=
  ⟨.topLevel, .empty⟩

/-- Puts a listed subvolume into the tree, in the place of one with its identifier. Of a listed
top-level subvolume only the mounts are taken. -/
def insert (tree : SubvolumeTree) (s : Subvolume) : SubvolumeTree :=
  if s.id = Subvolume.topLevelId then
    -- A listing may state another path or a parent for it.
    { tree with root := Subvolume.topLevel.withMountpoints s.mountpoints }
  else { tree with others := tree.others.insert s.id s }

/-- The tree of a list of subvolumes, of which the last with an identifier counts. -/
def ofSubvolumes (subvolumes : List Subvolume) : SubvolumeTree :=
  subvolumes.foldl insert bare

/-- The subvolume with an identifier. -/
def get? (tree : SubvolumeTree) (id : Nat) : Option Subvolume :=
  if id = Subvolume.topLevelId then some tree.root else tree.others.get? id

/-- The subvolumes, the top level first and then by ascending identifier. -/
def toList (tree : SubvolumeTree) : List Subvolume :=
  tree.root :: tree.others.values

/-- The first subvolume with exactly this path. -/
def findPath? (tree : SubvolumeTree) (path : String) : Option Subvolume :=
  tree.toList.find? fun s => s.path = path

/-- The subvolumes whose parent has an identifier, in ascending order of their own. -/
def children (tree : SubvolumeTree) (parent : Nat) : List Subvolume :=
  tree.others.values.filter fun s => s.parent = some parent

/-- The number of subvolumes. -/
def size (tree : SubvolumeTree) : Nat :=
  tree.others.size + 1

/-- The tree with every subvolume's mounts taken from a table. -/
def attach (tree : SubvolumeTree) (mounts : MountTable) : SubvolumeTree :=
  { root := tree.root.withMountpoints (mounts.forSubvolume Subvolume.topLevelId)
    others := tree.others.mapValues fun id s => s.withMountpoints (mounts.forSubvolume id) }

end SubvolumeTree

end BtrfsTopology
