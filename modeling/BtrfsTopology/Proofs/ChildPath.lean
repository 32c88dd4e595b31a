import BtrfsTopology.Proofs.AncestorWalk
import BtrfsTopology.Proofs.Consistency
import BtrfsTopology.Proofs.Nearest
import Mathlib.Data.List.Nodup

/-!
# Reaching a path through a mount above it

When a listing is well formed, the parents of a subvolume are just the subvolumes above its path, the
deepest first. The way up to a mount then enters the mounted file tree at the deepest mounted
subvolume above the path, and what is left of the path is appended to that one's first mount.

## Main definitions

* `SubvolumeTree.IsWellFormed` — paths are distinct, and parents are the next subvolumes above
* `SubvolumeTree.entrance?` — the mounted subvolume through which a path is reached
* `Filesystem.IsMountedAbove` — a subvolume above a path is mounted

## Main results

* `SubvolumeTree.Climbs.isDeepest`, `SubvolumeTree.exists_climbs` — the way up enumerates the
  subvolumes above a path
* `SubvolumeTree.isDeepest_of_entrance?`, `SubvolumeTree.exists_entrance?` — the entrance is the
  deepest mounted subvolume above the path
* `SubvolumeTree.childPath_of_entrance?` — where the path is reached from there
-/

namespace BtrfsTopology

open InternalPath SubvolumeTree

namespace SubvolumeTree

/-- No two subvolumes have the same path, and the parent of every subvolume but the top-level one is
the deepest subvolume above its path. -/
structure IsWellFormed (tree : SubvolumeTree) : Prop where
  distinct : (tree.toList.map Subvolume.path).Nodup
  parent : ∀ s ∈ tree.toList, s.id ≠ Subvolume.topLevelId →
    ∃ above, s.parent = some above.id ∧ tree.IsDeepest (fun a => IsAbove a.path s.path) above

instance : DecidablePred IsWellFormed := fun tree =>
  decidable_of_iff
    ((tree.toList.map Subvolume.path).Nodup ∧
      ∀ s ∈ tree.toList, s.id ≠ Subvolume.topLevelId →
        ∃ above ∈ tree.toList, s.parent = some above.id ∧
          tree.IsDeepest (fun a => IsAbove a.path s.path) above)
    ⟨fun ⟨hdistinct, hparent⟩ => ⟨hdistinct, fun s hs hid =>
        let ⟨above, _, h⟩ := hparent s hs hid
        ⟨above, h⟩⟩,
      fun h => ⟨h.distinct, fun s hs hid =>
        let ⟨above, habove⟩ := h.parent s hs hid
        ⟨above, habove.2.mem, habove⟩⟩⟩

/-- The mounted subvolume through which a path is reached from above, with its first mount. -/
def entrance? (tree : SubvolumeTree) (path : String) : Option (Subvolume × Mountpoint) :=
  (tree.container? path).bind fun s => tree.mountedAncestor? s.id

theorem childPath_of_entrance?_eq_none {tree : SubvolumeTree} {path : String}
    (h : tree.entrance? path = none) :
    tree.childPath path = .error (.unresolvablePath (normalize path)) := by
  rw [entrance?] at h
  simp only [childPath, h]

section WellFormed

variable {tree : SubvolumeTree} {s s' above : Subvolume} {path : String} {n : Nat}
  {reached : Subvolume × Mountpoint}

/-- In a well-formed tree a path names one subvolume at most. -/
theorem IsWellFormed.eq_of_path (hwf : tree.IsWellFormed) (hs : s ∈ tree.toList)
    (hs' : s' ∈ tree.toList) (h : s.path = s'.path) : s = s' :=
  List.inj_on_of_nodup_map hwf.distinct hs hs' h

theorem IsWellFormed.eq_of_segments (hwf : tree.IsWellFormed) (hnormal : tree.HasNormalPaths)
    (hs : s ∈ tree.toList) (hs' : s' ∈ tree.toList) (h : segments s.path = segments s'.path) :
    s = s' :=
  hwf.eq_of_path hs hs' ((hnormal s hs).eq_of_segments (hnormal s' hs') h)

/-- Of the subvolumes at or above a path one is the deepest. -/
theorem IsDeepest.unique {p : Subvolume → Prop} (hwf : tree.IsWellFormed)
    (hnormal : tree.HasNormalPaths) (hp : ∀ s, p s → IsAtOrAbove s.path path)
    (h : tree.IsDeepest p s) (h' : tree.IsDeepest p s') : s = s' := by
  apply hwf.eq_of_segments hnormal h.mem h'.mem
  have hle := h'.deepest s h.mem h.holds
  have hge := h.deepest s' h'.mem h'.holds
  have habove := (hp s h.holds).of_depth_le (hp s' h'.holds) hle
  exact habove.segments_eq hge

variable (hkeyed : tree.IsKeyed) (hnormal : tree.HasNormalPaths) (hwf : tree.IsWellFormed)

include hkeyed

theorem parentOf?_root : tree.parentOf? tree.root = none := by
  rw [parentOf?, hkeyed.root_parent]
  rfl

include hwf

/-- One step up leads to the next subvolume above. -/
theorem isDeepest_of_parentOf? (hs : s ∈ tree.toList) (h : tree.parentOf? s = some above) :
    tree.IsDeepest (fun a => IsAbove a.path s.path) above := by
  have hid : s.id ≠ Subvolume.topLevelId := by
    intro hid
    rw [hkeyed.eq_root hs hid, parentOf?_root hkeyed] at h
    contradiction
  obtain ⟨a, hparent, hdeepest⟩ := hwf.parent s hs hid
  rw [parentOf?, hparent, Option.bind_some, hkeyed.get?_id hdeepest.mem] at h
  exact Option.some.inj h ▸ hdeepest

/-- There is a step up from every subvolume that is below another. -/
theorem exists_parentOf? (hs : s ∈ tree.toList) (h : IsAbove path s.path) :
    ∃ above, tree.parentOf? s = some above := by
  have hid : s.id ≠ Subvolume.topLevelId := by
    intro hid
    rw [hkeyed.eq_root hs hid, hkeyed.root_path] at h
    exact not_isAbove_root path h
  obtain ⟨a, hparent, hdeepest⟩ := hwf.parent s hs hid
  exact ⟨a, by rw [parentOf?, hparent, Option.bind_some, hkeyed.get?_id hdeepest.mem]⟩

include hnormal

/-- A subvolume at or above another one is that one, or at or above its parent. -/
theorem eq_or_isAtOrAbove_parent (hs : s ∈ tree.toList) (hs' : s' ∈ tree.toList)
    (h : IsAtOrAbove s'.path s.path) :
    s' = s ∨ ∃ above, tree.parentOf? s = some above ∧ IsAbove above.path s.path ∧
      IsAtOrAbove s'.path above.path := by
  by_cases heq : segments s'.path = segments s.path
  · exact .inl (hwf.eq_of_segments hnormal hs' hs heq)
  · obtain ⟨above, hup⟩ := exists_parentOf? hkeyed hwf hs ⟨h, heq⟩
    have hdeepest := isDeepest_of_parentOf? hkeyed hwf hs hup
    have hle := hdeepest.deepest s' hs' ⟨h, heq⟩
    exact .inr ⟨above, hup, hdeepest.holds, h.of_depth_le hdeepest.holds.isAtOrAbove hle⟩

/-- The way up reaches the deepest mounted subvolume at or above the one it begins with. -/
theorem Climbs.isDeepest (h : tree.Climbs n s reached) (hs : s ∈ tree.toList) :
    tree.IsDeepest (fun a => IsAtOrAbove a.path s.path ∧ a.mountpoints ≠ []) reached.1 := by
  induction h with
  | @arrived s m hm =>
    refine ⟨hs, ⟨isAtOrAbove_refl s.path, fun hnil => ?_⟩, fun other _ hother => hother.1.depth_le⟩
    rw [hnil] at hm
    contradiction
  | @step n s above reached hnone hup _ ih =>
    have hdeepest := ih (mem_toList_of_parentOf? hup)
    have habove := (isDeepest_of_parentOf? hkeyed hwf hs hup).holds.isAtOrAbove
    refine ⟨hdeepest.mem, ⟨hdeepest.holds.1.trans habove, hdeepest.holds.2⟩, ?_⟩
    intro other hmem hother
    -- Every other one that is mounted is not this subvolume, hence at or above its parent.
    rcases eq_or_isAtOrAbove_parent hkeyed hnormal hwf hs hmem hother.1 with rfl | hparent
    · exact absurd (List.head?_eq_none_iff.1 hnone) hother.2
    · obtain ⟨above', hup', -, hle⟩ := hparent
      obtain rfl := Option.some.inj (hup.symm.trans hup')
      exact hdeepest.deepest other hmem ⟨hle, hother.2⟩

/-- The way up reaches a mount when there is one at or above its beginning. The induction is on the
number of segments, which every step up lessens. -/
theorem exists_climbs (hs : s ∈ tree.toList) (hs' : s' ∈ tree.toList)
    (habove : IsAtOrAbove s'.path s.path) (hmounted : s'.mountpoints ≠ []) :
    ∃ n reached, tree.Climbs n s reached := by
  induction hdepth : depth s.path using Nat.strong_induction_on generalizing s with
  | _ d ih =>
    cases hhead : s.mountpoints.head? with
    | some m => exact ⟨0, (s, m), .arrived hhead⟩
    | none =>
      rcases eq_or_isAtOrAbove_parent hkeyed hnormal hwf hs hs' habove with rfl | hparent
      · exact absurd (List.head?_eq_none_iff.1 hhead) hmounted
      · obtain ⟨above, hup, hbelow, hle⟩ := hparent
        have hlt : depth above.path < d := hdepth ▸ hbelow.depth_lt
        obtain ⟨n, reached, hclimbs⟩ := ih _ hlt (mem_toList_of_parentOf? hup) hle rfl
        exact ⟨n + 1, reached, .step hhead hup hclimbs⟩

/-- The way up to a path's mount begins at the deepest subvolume above the path. -/
theorem isDeepest_of_container? (h : tree.container? path = some s) :
    tree.IsDeepest (fun a => IsAbove a.path path) s := by
  have hnearest := isDeepest_nearest hkeyed hnormal path
  rw [container?] at h
  split at h
  · next heq =>
    -- The path is that of a subvolume, and the parent of this one is the next above.
    obtain ⟨id, hparent, hget⟩ := Option.bind_eq_some_iff.1 h
    rw [hkeyed.get?_id hnearest.mem, Option.bind_some] at hparent
    have hup : tree.parentOf? (tree.nearest path) = some s :=
      Option.bind_eq_some_iff.2 ⟨id, hparent, hget⟩
    refine (isDeepest_of_parentOf? hkeyed hwf hnearest.mem hup).congr fun a _ => ?_
    rw [heq, isAbove_normalize_iff]
  · next hne =>
    obtain rfl := Option.some.inj h
    -- The nearest subvolume is not at the path, as normal forms are told apart by their segments.
    have hsegments : segments (tree.nearest path).path ≠ segments path := fun heq =>
      hne ((hnormal _ hnearest.mem).eq_of_segments (isNormal_normalize path) (by simp [heq]))
    exact ⟨hnearest.mem, ⟨hnearest.holds, hsegments⟩, fun other hother habove =>
      hnearest.deepest other hother habove.isAtOrAbove⟩

/-- A path that is below a subvolume is contained in one. -/
theorem exists_container? {other : String} (h : IsAbove other path) :
    ∃ container, tree.container? path = some container := by
  rw [container?]
  split
  · next heq =>
    have hmem := (isDeepest_nearest hkeyed hnormal path).mem
    obtain ⟨above, hup⟩ := exists_parentOf? hkeyed hwf hmem
      (heq ▸ isAbove_normalize_iff.2 h : IsAbove other (tree.nearest path).path)
    exact ⟨above, by rw [parent?, hkeyed.get?_id hmem]; exact hup⟩
  · exact ⟨_, rfl⟩

/-- The search for a mounted ancestor finds the deepest mounted subvolume at or above. -/
theorem isDeepest_of_mountedAncestor? (hs : s ∈ tree.toList)
    (h : tree.mountedAncestor? s.id = some reached) :
    tree.IsDeepest (fun a => IsAtOrAbove a.path s.path ∧ a.mountpoints ≠ []) reached.1 ∧
      reached.1.mountpoints.head? = some reached.2 := by
  obtain ⟨s', n, hget, hclimbs⟩ := mountedAncestor?_eq_some_iff.1 h
  obtain rfl : s = s' := Option.some.inj ((hkeyed.get?_id hs).symm.trans hget)
  exact ⟨hclimbs.isDeepest hkeyed hnormal hwf hs, hclimbs.head?_mountpoints⟩

/-- A subvolume is reached at the mount of that one, where what it has below it is appended. -/
theorem mountedPath?_of_mountedAncestor? (hs : s ∈ tree.toList)
    (h : tree.mountedAncestor? s.id = some reached) :
    ∃ rest, segments s.path = segments reached.1.path ++ rest ∧
      tree.mountedPath? s.id = some (reached.2.path.join (relativeText rest)) := by
  obtain ⟨hdeepest, -⟩ := isDeepest_of_mountedAncestor? hkeyed hnormal hwf hs h
  obtain ⟨rest, hrest⟩ := hdeepest.holds.1
  have hrelative : reached.1.relativeChild s.path = .ok (relativeText rest) :=
    relativeChild_of_segments (hnormal _ hdeepest.mem) (hnormal s hs) hrest.symm
  refine ⟨rest, hrest.symm, ?_⟩
  simp only [mountedPath?, hkeyed.get?_id hs, h, hrelative]

/-- A path is entered at the deepest mounted subvolume above it. -/
theorem isDeepest_of_entrance? (h : tree.entrance? path = some reached) :
    tree.IsDeepest (fun a => IsAbove a.path path ∧ a.mountpoints ≠ []) reached.1 ∧
      reached.1.mountpoints.head? = some reached.2 := by
  obtain ⟨s, hcontainer, hancestor⟩ := Option.bind_eq_some_iff.1 h
  have hs := isDeepest_of_container? hkeyed hnormal hwf hcontainer
  obtain ⟨hdeepest, hhead⟩ := isDeepest_of_mountedAncestor? hkeyed hnormal hwf hs.mem hancestor
  refine ⟨⟨hdeepest.mem, ⟨hdeepest.holds.1.trans_isAbove hs.holds, hdeepest.holds.2⟩, ?_⟩, hhead⟩
  intro other hmem hother
  have hle := hother.1.isAtOrAbove.of_depth_le hs.holds.isAtOrAbove
    (hs.deepest other hmem hother.1)
  exact hdeepest.deepest other hmem ⟨hle, hother.2⟩

/-- A path below a mounted subvolume is entered somewhere. -/
theorem exists_entrance? (hs : s ∈ tree.toList) (habove : IsAbove s.path path)
    (hmounted : s.mountpoints ≠ []) : ∃ reached, tree.entrance? path = some reached := by
  obtain ⟨container, hcontainer⟩ := exists_container? hkeyed hnormal hwf habove
  have hdeepest := isDeepest_of_container? hkeyed hnormal hwf hcontainer
  have hle := habove.isAtOrAbove.of_depth_le hdeepest.holds.isAtOrAbove
    (hdeepest.deepest s hs habove)
  obtain ⟨n, reached, hclimbs⟩ := exists_climbs hkeyed hnormal hwf hdeepest.mem hs hle hmounted
  refine ⟨reached, Option.bind_eq_some_iff.2 ⟨container, hcontainer, ?_⟩⟩
  exact mountedAncestor?_eq_some_iff.2 ⟨container, n, hkeyed.get?_id hdeepest.mem, hclimbs⟩

/-- What is left of the path below its entrance is appended to the mount. -/
theorem childPath_of_entrance? (h : tree.entrance? path = some reached) :
    ∃ rest, rest ≠ [] ∧ segments path = segments reached.1.path ++ rest ∧
      tree.childPath path = .ok (reached.2.path.join (relativeText rest)) := by
  obtain ⟨hdeepest, -⟩ := isDeepest_of_entrance? hkeyed hnormal hwf h
  obtain ⟨rest, hne, hrest⟩ := hdeepest.holds.1.exists_rest
  have hrelative : reached.1.relativeChild (normalize path) = .ok (relativeText rest) :=
    relativeChild_of_segments (hnormal _ hdeepest.mem) (isNormal_normalize path) (by simp [hrest])
  refine ⟨rest, hne, hrest, ?_⟩
  rw [entrance?] at h
  simp only [childPath, h, hrelative]
  rfl

end WellFormed

end SubvolumeTree

namespace Filesystem

/-- The subvolume is above a path, and the filesystem has a mount of it. -/
def IsMountedAbove (fs : Filesystem) (path : String) (s : Subvolume) : Prop :=
  IsAbove s.path path ∧ fs.mounts.mountsOf s.id ≠ []

instance (fs : Filesystem) (path : String) : DecidablePred (fs.IsMountedAbove path) := fun s =>
  inferInstanceAs (Decidable (IsAbove s.path path ∧ fs.mounts.mountsOf s.id ≠ []))

variable {fs : Filesystem} {s : Subvolume}

/-- The subvolumes have just the mounts that the table lists of them. -/
theorem Consistent.mountpoints_eq (h : fs.Consistent) (hs : s ∈ fs.subvolumes.toList) :
    s.mountpoints = fs.mounts.mountsOf s.id :=
  (h.attached s hs).trans (h.indexed s.id)

theorem Consistent.isMountedAbove_iff (h : fs.Consistent) {path : String}
    (hs : s ∈ fs.subvolumes.toList) :
    fs.IsMountedAbove (normalize path) s ↔ IsAbove s.path path ∧ s.mountpoints ≠ [] := by
  rw [IsMountedAbove, isAbove_normalize_iff, h.mountpoints_eq hs]

/-- A path is reached through the deepest mounted subvolume above it, whether or not it is that of a
subvolume itself: what it has below that one is appended to the first mount. If there is none, and
so in particular at the root, the path is not resolved, and this is the only error there is. -/
theorem childPath_through_deepest_mount (hfs : fs.Reachable)
    (hwf : fs.subvolumes.IsWellFormed) (path : String) :
    ((∃ s ∈ fs.subvolumes.toList, fs.IsMountedAbove (normalize path) s) →
      ∃ entrance m rest, fs.subvolumes.IsDeepest (fs.IsMountedAbove (normalize path)) entrance ∧
        (∀ other, fs.subvolumes.IsDeepest (fs.IsMountedAbove (normalize path)) other →
          other = entrance) ∧
        (fs.mounts.mountsOf entrance.id).head? = some m ∧ rest ≠ [] ∧
        segments (normalize path) = segments entrance.path ++ rest ∧
        fs.subvolumes.childPath path = .ok (m.path.join (relativeText rest))) ∧
    ((∀ s ∈ fs.subvolumes.toList, ¬ fs.IsMountedAbove (normalize path) s) →
      fs.subvolumes.childPath path = .error (.unresolvablePath (normalize path))) ∧
    (normalize path = "/" → ∀ s ∈ fs.subvolumes.toList, ¬ fs.IsMountedAbove (normalize path) s) ∧
    ∀ parent child, fs.subvolumes.childPath path ≠ .error (.pathMismatch parent child) := by
  have h := hfs.consistent
  refine ⟨?_, ?_, ?_, ?_⟩
  · rintro ⟨s, hs, hmounted⟩
    obtain ⟨habove, hne⟩ := (h.isMountedAbove_iff hs).1 hmounted
    obtain ⟨⟨entrance, m⟩, hentrance⟩ :=
      exists_entrance? h.tree_keyed h.normal_paths hwf hs habove hne
    obtain ⟨hdeepest, hm⟩ := isDeepest_of_entrance? h.tree_keyed h.normal_paths hwf hentrance
    obtain ⟨rest, hrest, hsegments, hok⟩ :=
      childPath_of_entrance? h.tree_keyed h.normal_paths hwf hentrance
    have hdeepest' := hdeepest.congr fun a ha => (h.isMountedAbove_iff ha).symm
    refine ⟨entrance, m, rest, hdeepest', fun other hother => ?_, ?_, hrest, ?_, hok⟩
    · exact hother.unique hwf h.normal_paths (fun _ ha => ha.1.isAtOrAbove) hdeepest'
    · rw [← h.mountpoints_eq hdeepest.mem]
      exact hm
    · rw [segments_normalize]
      exact hsegments
  · intro hnone
    cases hentrance : fs.subvolumes.entrance? path with
    | none => exact childPath_of_entrance?_eq_none hentrance
    | some reached =>
      obtain ⟨hdeepest, -⟩ := isDeepest_of_entrance? h.tree_keyed h.normal_paths hwf hentrance
      exact absurd ((h.isMountedAbove_iff hdeepest.mem).2 hdeepest.holds) (hnone _ hdeepest.mem)
  · intro hroot s _ hmounted
    exact not_isAbove_root s.path (hroot ▸ hmounted.1)
  · intro parent child
    cases hentrance : fs.subvolumes.entrance? path with
    | none => simp [childPath_of_entrance?_eq_none hentrance]
    | some reached =>
      obtain ⟨rest, -, -, hok⟩ :=
        childPath_of_entrance? h.tree_keyed h.normal_paths hwf hentrance
      simp [hok]

/-- The path of an unmounted subvolume below a mounted one, which is below the mounted root. -/
theorem childPath_through_nested_mount :
    let listing : List Subvolume :=
      [.ofListed 257 "data" (some 5), .ofListed 258 "data/a" (some 257), .ofListed 259 "b" (some 5)]
    let mountpoints : List Mountpoint :=
      [⟨⟨"/"⟩, ⟨"/dev/sda"⟩, 5, "/"⟩, ⟨⟨"/srv/data/"⟩, ⟨"/dev/sda"⟩, 257, "/data"⟩,
        ⟨⟨"/mnt"⟩, ⟨"/dev/sda"⟩, 257, "/data"⟩]
    let fs := ((Filesystem.new "1111" none [⟨"/dev/sda"⟩]).updateSubvolumes listing).updateMountpoints
      mountpoints
    fs.Reachable ∧ fs.subvolumes.IsWellFormed ∧
      (∃ s ∈ fs.subvolumes.toList, fs.IsMountedAbove (normalize "data//a/") s) ∧
      fs.subvolumes.childPath "data//a/" = .ok ⟨"/srv/data/a"⟩ ∧
      ∃ entrance, fs.subvolumes.IsDeepest (fs.IsMountedAbove (normalize "data//a/")) entrance := by
  intro listing mountpoints fs
  have hfs : fs.Reachable := reachable_of_listing _ _ _ (by decide) _
  have hwf : fs.subvolumes.IsWellFormed := by decide
  have hmounted : ∃ s ∈ fs.subvolumes.toList, fs.IsMountedAbove (normalize "data//a/") s := by decide
  obtain ⟨hthrough, -⟩ := childPath_through_deepest_mount hfs hwf "data//a/"
  obtain ⟨entrance, -, -, hdeepest, -⟩ := hthrough hmounted
  exact ⟨hfs, hwf, hmounted, by decide, entrance, hdeepest⟩

end Filesystem

end BtrfsTopology
