import BtrfsTopology.SubvolumeTree

/-!
# From internal paths to mounted paths

A subvolume that is not mounted is reached through a subvolume above it that is: walk up the parents
to the first one with a mount, and append what is left of the path behind that one's own.

## Main definitions

* `SubvolumeTree.nearest` — the subvolume at a path or closest above it
* `SubvolumeTree.mountedAncestor?` — the first mounted subvolume on the way up, with its first mount
* `SubvolumeTree.mountedPath?` — where a subvolume is reached in the mounted file tree
* `SubvolumeTree.childPath` — where a path is reached through a subvolume above it
-/

namespace BtrfsTopology.SubvolumeTree

/-- The subvolume at an internal path, which need not be in normal form. -/
def atPath? (tree : SubvolumeTree) (path : String) : Option Subvolume :=
  tree.findPath? (InternalPath.normalize path)

/-- The parent of the subvolume with an identifier. -/
def parent? (tree : SubvolumeTree) (id : Nat) : Option Subvolume :=
  ((tree.get? id).bind Subvolume.parent).bind tree.get?

/-- The subvolume at an internal path, or at the deepest path above it that has one. -/
def nearest (tree : SubvolumeTree) (path : String) : Subvolume :=
  ((InternalPath.withAncestors path).findSome? tree.findPath?).getD tree.root

/-- The first mounted subvolume on the way up from `s`, given how often the way may go up. -/
def mountedAncestorWithin (tree : SubvolumeTree) :
    Nat → Subvolume → Option (Subvolume × Mountpoint)
  | steps, s =>
    match s.mountpoints.head? with
    | some m => some (s, m)
    | none =>
      -- With no step left the way has met some subvolume twice.
      match steps with
      | 0 => none
      | steps + 1 => (s.parent.bind tree.get?).bind (tree.mountedAncestorWithin steps)

/-- The first mounted subvolume on the way up from the one with an identifier, itself included, and
its first mount. There is none when the way ends at the top, leads to an unknown parent or runs in a
circle without meeting a mount. As many steps as there are subvolumes suffice. -/
def mountedAncestor? (tree : SubvolumeTree) (id : Nat) : Option (Subvolume × Mountpoint) :=
  (tree.get? id).bind (tree.mountedAncestorWithin tree.size)

/-- Where the subvolume with an identifier is reached: at its own first mount, or below the first
mount of its closest mounted ancestor. -/
def mountedPath? (tree : SubvolumeTree) (id : Nat) : Option VfsPath :=
  match tree.get? id, tree.mountedAncestor? id with
  | some s, some (ancestor, m) =>
    match ancestor.relativeChild s.path with
    | .ok relative => some (m.path.join relative)
    | .error _ => none
  | _, _ => none

/-- The subvolume from which the way up to a mount starts when `path` is to be reached from above:
the parent of the subvolume at `path`, or the nearest one when there is none at `path`. -/
def container? (tree : SubvolumeTree) (path : String) : Option Subvolume :=
  let nearest := tree.nearest path
  -- A subvolume at the path itself may be about to be created or deleted.
  if nearest.path = InternalPath.normalize path then tree.parent? nearest.id else some nearest

/-- Where an internal path is reached through a mounted subvolume above it. The path may be that of
a subvolume, and then the answer serves to create or delete it. -/
def childPath (tree : SubvolumeTree) (path : String) : Except TopologyError VfsPath :=
  let target := InternalPath.normalize path
  match (tree.container? path).bind fun s => tree.mountedAncestor? s.id with
  | none => .error (.unresolvablePath target)
  | some (ancestor, m) => (ancestor.relativeChild target).map m.path.join

end BtrfsTopology.SubvolumeTree
