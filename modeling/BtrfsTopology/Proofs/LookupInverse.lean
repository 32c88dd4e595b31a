import BtrfsTopology.Filesystem.Lookup
import BtrfsTopology.Proofs.ChildPath
import BtrfsTopology.Proofs.VfsPath

/-!
# Looking up what was resolved

Resolving turns an internal path into one of the mounted file tree, by the texts of both; looking up
goes the other way, by components. The mount that a path was resolved through is found again unless
another mount hides it, and what is behind it is then what was appended to it.

## Main definitions

* `Filesystem.HasMountPaths` — mounts have the paths of their subvolumes
* `Filesystem.IsShownBy` — no mount hides what another shows at a path

## Main results

* `Mountpoint.exists_innermost?` — the innermost mount is the last of the deepest
* `Filesystem.lookup?_join` — a path appended to a mount is looked up below the mount's subvolume
-/

namespace BtrfsTopology

open InternalPath SubvolumeTree

/-! ## The innermost mount -/

namespace Mountpoint

variable {mountpoints : List Mountpoint}

/-- One further mount is the innermost one unless another lies deeper. -/
theorem innermost?_concat (mountpoints : List Mountpoint) (m : Mountpoint) :
    innermost? (mountpoints ++ [m]) =
      match innermost? mountpoints with
      | none => some m
      | some best => if best.depth ≤ m.depth then some m else some best := by
  rw [innermost?, innermost?, List.foldl_append]
  rfl

/-- The innermost mount is the last of the deepest ones. -/
theorem exists_innermost? (h : mountpoints ≠ []) :
    ∃ before m after, mountpoints = before ++ m :: after ∧ innermost? mountpoints = some m ∧
      (∀ b ∈ before, b.depth ≤ m.depth) ∧ ∀ a ∈ after, a.depth < m.depth := by
  -- The search meets the last mount last, so the induction takes mounts off at the end.
  induction mountpoints using List.reverseRecOn with
  | nil => exact absurd rfl h
  | append_singleton mountpoints m ih =>
    rw [innermost?_concat]
    by_cases hnil : mountpoints = []
    · subst hnil
      exact ⟨[], m, [], rfl, rfl, by simp, by simp⟩
    · obtain ⟨before, best, after, heq, hbest, hbefore, hafter⟩ := ih hnil
      simp only [hbest]
      split
      · next hle =>
        -- It lies as deep as the best so far, and that as deep as the others.
        refine ⟨mountpoints, m, [], rfl, rfl, fun b hb => ?_, by simp⟩
        rw [heq] at hb
        rcases List.mem_append.1 hb with hb | hb
        · exact (hbefore b hb).trans hle
        · rcases List.mem_cons.1 hb with rfl | hb
          · exact hle
          · exact (hafter b hb).le.trans hle
      · next hlt =>
        refine ⟨before, best, after ++ [m], by simp [heq], rfl, hbefore, fun a ha => ?_⟩
        rcases List.mem_append.1 ha with ha | ha
        · exact hafter a ha
        · obtain rfl := List.mem_singleton.1 ha
          exact Nat.lt_of_not_le hlt

theorem depth_le_of_innermost? {m other : Mountpoint} (h : innermost? mountpoints = some m)
    (hother : other ∈ mountpoints) : other.depth ≤ m.depth := by
  obtain ⟨before, m', after, heq, hm', hbefore, hafter⟩ :=
    exists_innermost? (List.ne_nil_of_mem hother)
  obtain rfl := Option.some.inj (h.symm.trans hm')
  rw [heq] at hother
  rcases List.mem_append.1 hother with hother | hother
  · exact hbefore other hother
  · rcases List.mem_cons.1 hother with rfl | hother
    · exact Nat.le_refl _
    · exact (hafter other hother).le

theorem mem_of_innermost? {m : Mountpoint} (h : innermost? mountpoints = some m) :
    m ∈ mountpoints := by
  have hne : mountpoints ≠ [] := by
    rintro rfl
    exact Option.some_ne_none m h.symm
  obtain ⟨before, m', after, rfl, hm', -⟩ := exists_innermost? hne
  obtain rfl := Option.some.inj (h.symm.trans hm')
  exact List.mem_append_right _ List.mem_cons_self

end Mountpoint

namespace Filesystem

/-- Every mount of a known subvolume has the subvolume's path. -/
def HasMountPaths (fs : Filesystem) : Prop :=
  ∀ m ∈ fs.mounts.mountpoints, ∀ s ∈ fs.subvolumes.toList, s.id = m.subvolumeId →
    m.subvolumePath = s.path

/-- What a mount shows at a path is not hidden: of the mounts at or above the path none lies deeper,
and those on the same place are of the same subvolume. -/
structure IsShownBy (fs : Filesystem) (m : Mountpoint) (path : VfsPath) : Prop where
  deepest : ∀ other ∈ fs.mounts.mountpoints, path.startsWith other.path → other.depth ≤ m.depth
  same_subvolume : ∀ other ∈ fs.mounts.mountpoints, other.path.sameAs m.path →
    other.subvolumeId = m.subvolumeId

instance : DecidablePred HasMountPaths := fun fs =>
  inferInstanceAs (Decidable (∀ m ∈ fs.mounts.mountpoints, ∀ s ∈ fs.subvolumes.toList,
    s.id = m.subvolumeId → m.subvolumePath = s.path))

instance (fs : Filesystem) (m : Mountpoint) (path : VfsPath) : Decidable (fs.IsShownBy m path) :=
  decidable_of_iff
    ((∀ other ∈ fs.mounts.mountpoints, path.startsWith other.path → other.depth ≤ m.depth) ∧
      ∀ other ∈ fs.mounts.mountpoints, other.path.sameAs m.path →
        other.subvolumeId = m.subvolumeId)
    ⟨fun ⟨deepest, same⟩ => ⟨deepest, same⟩, fun h => ⟨h.deepest, h.same_subvolume⟩⟩

variable {fs : Filesystem} {m : Mountpoint} {s : Subvolume} {path : VfsPath} {segs : List Segment}

theorem mem_mountsAbove : m ∈ fs.mountsAbove path ↔
    m ∈ fs.mounts.mountpoints ∧ path.startsWith m.path = true :=
  List.mem_filter

/-- The innermost mount above a path lies where the mount does that shows it. -/
theorem IsShownBy.exists_innermost? (hshown : fs.IsShownBy m path)
    (hm : m ∈ fs.mounts.mountpoints) (hpath : path.startsWith m.path = true) :
    ∃ inner ∈ fs.mounts.mountpoints, Mountpoint.innermost? (fs.mountsAbove path) = some inner ∧
      inner.path.components = m.path.components ∧ inner.subvolumeId = m.subvolumeId := by
  have hmem : m ∈ fs.mountsAbove path := mem_mountsAbove.2 ⟨hm, hpath⟩
  obtain ⟨-, inner, -, -, hinner, -⟩ :=
    Mountpoint.exists_innermost? (List.ne_nil_of_mem hmem)
  obtain ⟨hlisted, hstarts⟩ := mem_mountsAbove.1 (Mountpoint.mem_of_innermost? hinner)
  have hdepth : inner.depth = m.depth :=
    Nat.le_antisymm (hshown.deepest inner hlisted hstarts)
      (Mountpoint.depth_le_of_innermost? hinner hmem)
  -- Both are made of the first components of the path, as many for one as for the other.
  have hcomponents : inner.path.components = m.path.components :=
    List.IsPrefix.eq_of_length
      (List.prefix_of_prefix_length_le (List.isPrefixOf_iff_prefix.1 hstarts)
        (List.isPrefixOf_iff_prefix.1 hpath) hdepth.le) hdepth
  have hsame : inner.path.sameAs m.path = true := by simp [VfsPath.sameAs, hcomponents]
  exact ⟨inner, hlisted, hinner, hcomponents, hshown.same_subvolume inner hlisted hsame⟩

/-- A path that was appended to a mount is looked up below the mounted subvolume. -/
theorem lookup?_join (h : fs.Consistent) (hpaths : fs.HasMountPaths)
    (hs : s ∈ fs.subvolumes.toList) (hm : s.mountpoints.head? = some m)
    (hsegs : ∀ segment ∈ segs, VfsPath.IsStep segment)
    (hshown : fs.IsShownBy m (m.path.join (relativeText segs))) {target : String}
    (htarget : segments target = segments s.path ++ segs) :
    fs.lookup? (m.path.join (relativeText segs)) = some (fs.subvolumes.nearest target) := by
  rw [h.mountpoints_eq hs] at hm
  obtain ⟨hlisted, hid⟩ := MountTable.mem_mountsOf.1 (List.mem_of_head? hm)
  have hstarts : (m.path.join (relativeText segs)).startsWith m.path = true := by
    rw [VfsPath.startsWith, VfsPath.components_join m.path hsegs]
    exact List.isPrefixOf_iff_prefix.2 (List.prefix_append _ _)
  -- The innermost mount may be another one, but it is on the same place and of the same subvolume.
  obtain ⟨inner, hinner, hinnermost, hcomponents, hinnerId⟩ :=
    hshown.exists_innermost? hlisted hstarts
  have hbelow : (m.path.join (relativeText segs)).below? inner.path = some (relativeText segs) :=
    VfsPath.below?_join hcomponents hsegs
  have hinnerPath : inner.subvolumePath = s.path :=
    hpaths inner hinner s hs (hid.symm.trans hinnerId.symm)
  have hsegments : segments (s.path ++ "/" ++ relativeText segs) = segments target := by
    rw [segments_append_slash, htarget,
      innerSegments_relativeText fun segment hsegment => (hsegs segment hsegment).1]
  rw [lookup?, hinnermost, Option.bind_eq_bind, Option.bind_some, hbelow, Option.bind_eq_bind,
    Option.bind_some, hinnerPath, nearest_congr hsegments]
  rfl

/-- The nearest subvolume to the path of a subvolume is this one. -/
theorem nearest_path (h : fs.Consistent) (hwf : fs.subvolumes.IsWellFormed)
    (hs : s ∈ fs.subvolumes.toList) : fs.subvolumes.nearest s.path = s := by
  have hnearest := isDeepest_nearest h.tree_keyed h.normal_paths s.path
  apply hwf.eq_of_segments h.normal_paths hnearest.mem hs
  exact hnearest.holds.segments_eq (hnearest.deepest s hs (isAtOrAbove_refl s.path))

theorem isStep_of_segments {target : String} {front : List Segment}
    (hdot : ['.'] ∉ segments target) (htarget : segments target = front ++ segs) :
    ∀ segment ∈ segs, VfsPath.IsStep segment := by
  intro segment hsegment
  have hmem : segment ∈ segments target := htarget ▸ List.mem_append_right front hsegment
  exact ⟨isSegment_of_mem_segments hmem, fun heq => hdot (heq ▸ hmem)⟩

/-- Looking up undoes resolving. A path that was resolved through a mount which shows the result is
looked up as the subvolume nearest to it, and a subvolume that is reached through such a mount is
found there again. No segment may be `.`, which is lost in the mounted file tree. -/
theorem lookup?_of_resolved (hfs : fs.Reachable) (hwf : fs.subvolumes.IsWellFormed)
    (hpaths : fs.HasMountPaths) :
    (∀ target entrance m resolved, ['.'] ∉ segments target →
      fs.subvolumes.entrance? target = some (entrance, m) →
      fs.subvolumes.childPath target = .ok resolved → fs.IsShownBy m resolved →
      fs.lookup? resolved = some (fs.subvolumes.nearest target)) ∧
    (∀ s ∈ fs.subvolumes.toList, ∀ above m resolved, ['.'] ∉ segments s.path →
      fs.subvolumes.mountedAncestor? s.id = some (above, m) →
      fs.subvolumes.mountedPath? s.id = some resolved → fs.IsShownBy m resolved →
      fs.lookup? resolved = some s) := by
  have h := hfs.consistent
  constructor
  · intro target entrance m resolved hdot hentrance hresolved hshown
    obtain ⟨hdeepest, hm⟩ := isDeepest_of_entrance? h.tree_keyed h.normal_paths hwf hentrance
    obtain ⟨rest, -, htarget, hok⟩ :=
      childPath_of_entrance? h.tree_keyed h.normal_paths hwf hentrance
    obtain rfl := Except.ok.inj (hresolved.symm.trans hok)
    exact lookup?_join h hpaths hdeepest.mem hm (isStep_of_segments hdot htarget) hshown htarget
  · intro s hs above m resolved hdot hancestor hresolved hshown
    obtain ⟨hdeepest, hm⟩ :=
      isDeepest_of_mountedAncestor? h.tree_keyed h.normal_paths hwf hs hancestor
    obtain ⟨rest, htarget, hok⟩ :=
      mountedPath?_of_mountedAncestor? h.tree_keyed h.normal_paths hwf hs hancestor
    obtain rfl := Option.some.inj (hresolved.symm.trans hok)
    rw [lookup?_join h hpaths hdeepest.mem hm (isStep_of_segments hdot htarget) hshown htarget,
      nearest_path h hwf hs]

/-- A path in an unmounted subvolume, and that subvolume, below one which is mounted twice on one
place below the mounted root. -/
theorem lookup?_of_resolved_below_mount :
    let listing : List Subvolume := [.ofListed 257 "@home" (some 5), .ofListed 258 "@home/x" (some 257)]
    let home : Mountpoint := ⟨⟨"/home/"⟩, ⟨"/dev/sda"⟩, 257, "/@home"⟩
    let mountpoints : List Mountpoint :=
      [⟨⟨"/"⟩, ⟨"/dev/sda"⟩, 5, "/"⟩, home, ⟨⟨"/./home"⟩, ⟨"/dev/sda"⟩, 257, "/@home"⟩]
    let fs := ((Filesystem.new "1111" none [⟨"/dev/sda"⟩]).updateSubvolumes listing).updateMountpoints
      mountpoints
    let above : Subvolume := ⟨257, "/@home", some 5, mountpoints.tail⟩
    let s : Subvolume := ⟨258, "/@home/x", some 257, []⟩
    fs.Reachable ∧ fs.subvolumes.IsWellFormed ∧ fs.HasMountPaths ∧
      fs.subvolumes.entrance? "@home/x//y/.." = some (above, home) ∧
      fs.subvolumes.childPath "@home/x//y/.." = .ok ⟨"/home/x/y/.."⟩ ∧
      fs.lookup? ⟨"/home/x/y/.."⟩ = some (fs.subvolumes.nearest "@home/x//y/..") ∧
      fs.subvolumes.mountedAncestor? s.id = some (above, home) ∧
      fs.subvolumes.mountedPath? s.id = some ⟨"/home/x"⟩ ∧ fs.lookup? ⟨"/home/x"⟩ = some s := by
  intro listing home mountpoints fs above s
  have hfs : fs.Reachable := reachable_of_listing _ _ _ (by decide) _
  have hwf : fs.subvolumes.IsWellFormed := by decide
  have hpaths : fs.HasMountPaths := by decide
  have hentrance : fs.subvolumes.entrance? "@home/x//y/.." = some (above, home) := by decide
  have hchild : fs.subvolumes.childPath "@home/x//y/.." = .ok ⟨"/home/x/y/.."⟩ := by decide
  have hancestor : fs.subvolumes.mountedAncestor? s.id = some (above, home) := by decide
  have hmounted : fs.subvolumes.mountedPath? s.id = some ⟨"/home/x"⟩ := by decide
  obtain ⟨htarget, hsubvolume⟩ := lookup?_of_resolved hfs hwf hpaths
  refine ⟨hfs, hwf, hpaths, hentrance, hchild, ?_, hancestor, hmounted, ?_⟩
  · exact htarget _ _ _ _ (by decide) hentrance hchild (by decide)
  · exact hsubvolume s (by decide) _ _ _ (by decide) hancestor hmounted (by decide)

end Filesystem

end BtrfsTopology
