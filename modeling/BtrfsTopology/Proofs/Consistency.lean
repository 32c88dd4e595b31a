import BtrfsTopology.Filesystem.Change
import BtrfsTopology.Proofs.DeviceSet
import BtrfsTopology.Proofs.Dialogue
import BtrfsTopology.Proofs.SubvolumeTree
import BtrfsTopology.Registry.Discovery
import Mathlib.Logic.Relation

/-!
# Filesystems stay consistent

A filesystem keeps its mounts three times: as a list, in an index by subvolume, and with each
subvolume. Every operation rewrites some of these, and those that ask the host may fail half way. In
every state that can be reached the three agree all the same, because each part is replaced as a
whole and the subvolumes take their mounts from the table each time.

## Main definitions

* `Filesystem.Consistent` — the parts of a filesystem agree
* `Operation` — what can be done to a filesystem
* `Filesystem.IsOrigin`, `Filesystem.Step`, `Filesystem.Reachable` — the states there can be

## Main results

* `Filesystem.IsStable.perform` — what survives every replacement survives every operation
* `Filesystem.Reachable.consistent` — every reachable filesystem is consistent
-/

namespace BtrfsTopology

/-- The mount table, its index, the tree and the subvolumes' own mounts tell the same. -/
structure Filesystem.Consistent (fs : Filesystem) : Prop where
  devices_keyed : fs.devices.IsKeyed
  /-- Every mount is of a device of the filesystem. -/
  own_device : ∀ m ∈ fs.mounts.mountpoints, fs.hasDevice m.device
  /-- The index selects the mounts of each subvolume. -/
  indexed : ∀ id, fs.mounts.forSubvolume id = fs.mounts.mountsOf id
  tree_keyed : fs.subvolumes.IsKeyed
  normal_paths : fs.subvolumes.HasNormalPaths
  attached : fs.subvolumes.IsAttached fs.mounts

/-- What can be done to a filesystem. Listed subvolumes have paths in normal form. -/
inductive Operation where
  | updateMountpoints (mountpoints : List Mountpoint)
  | updateSubvolumes (subvolumes : List Subvolume)
      (normal : ∀ s ∈ subvolumes, InternalPath.IsNormal s.path)
  | setLabel (label : Option String)
  | refresh
  | refreshMounts
  | refreshSubvolumes
  | refreshDefault
  | carryOut (change : Change)

/-- How an operation is performed. -/
def Operation.perform : Operation → Update Filesystem Unit
  | .updateMountpoints mountpoints => modify (·.updateMountpoints mountpoints)
  | .updateSubvolumes subvolumes _ => modify (·.updateSubvolumes subvolumes)
  | .setLabel label => modify (·.setLabel label)
  | .refresh => Filesystem.refresh
  | .refreshMounts => Filesystem.refreshMounts
  | .refreshSubvolumes => Filesystem.refreshSubvolumes
  | .refreshDefault => Filesystem.refreshDefault
  | .carryOut change => do let _ ← Filesystem.carryOut change

namespace Filesystem

/-- The filesystems that are there before any operation: new ones, and those that a discovery with
some host has found. -/
inductive IsOrigin : Filesystem → Prop where
  | new (uuid : String) (label : Option String) (devices : List VfsPath) :
      IsOrigin (Filesystem.new uuid label devices)
  | discovered {τ : Type} {host : Dialogue.Host τ} {state : τ} {found : FilesystemMap}
      {key : String} {fs : Filesystem}
      (h : (Query.discover.outcome host state).value = .ok found) (hfs : (key, fs) ∈ found.entries) :
      IsOrigin fs

/-- Some operation takes one filesystem to the other with some host, whether or not it fails. -/
def Step (fs fs' : Filesystem) : Prop :=
  ∃ (operation : Operation) (τ : Type) (host : Dialogue.Host τ) (state : τ),
    (operation.perform.outcome fs host state).value.2 = fs'

/-- The filesystem can come about from an origin by operations. -/
def Reachable (fs : Filesystem) : Prop :=
  ∃ origin, IsOrigin origin ∧ Relation.ReflTransGen Step origin fs

/-- A host on which no tool can be started and no link be followed. -/
def unreachableHost : Dialogue.Host Unit
  | .inspect _, state => (.error (.system .notFound), state)
  | .mutate _, state => (.error (.system .notFound), state)
  | .resolveDevice device, state => (device, state)

theorem step_updateMountpoints (fs : Filesystem) (mountpoints : List Mountpoint) :
    Step fs (fs.updateMountpoints mountpoints) :=
  ⟨.updateMountpoints mountpoints, Unit, unreachableHost, (), rfl⟩

theorem step_updateSubvolumes (fs : Filesystem) {subvolumes : List Subvolume}
    (hnormal : ∀ s ∈ subvolumes, InternalPath.IsNormal s.path) :
    Step fs (fs.updateSubvolumes subvolumes) :=
  ⟨.updateSubvolumes subvolumes hnormal, Unit, unreachableHost, (), rfl⟩

/-! ## Replacing a part -/

theorem consistent_new (uuid : String) (label : Option String) (devices : List VfsPath) :
    (Filesystem.new uuid label devices).Consistent where
  devices_keyed := DeviceSet.isKeyed_ofDevices devices
  own_device := fun _ h => absurd h List.not_mem_nil
  indexed := MountTable.forSubvolume_empty
  tree_keyed := SubvolumeTree.isKeyed_bare
  normal_paths := by
    intro s hs
    obtain rfl := List.mem_singleton.1 hs
    exact InternalPath.isNormal_root
  attached := by
    intro s hs
    obtain rfl := List.mem_singleton.1 hs
    rfl

/-- Every listing and every list of mounts make a reachable filesystem. -/
theorem reachable_of_listing (uuid : String) (label : Option String) (devices : List VfsPath)
    {subvolumes : List Subvolume} (hnormal : ∀ s ∈ subvolumes, InternalPath.IsNormal s.path)
    (mountpoints : List Mountpoint) :
    Reachable (((Filesystem.new uuid label devices).updateSubvolumes subvolumes).updateMountpoints
      mountpoints) :=
  ⟨_, .new uuid label devices,
    .head (step_updateSubvolumes _ hnormal) (.single (step_updateMountpoints _ mountpoints))⟩

variable {fs : Filesystem}

theorem Consistent.updateMountpoints (h : fs.Consistent) (mountpoints : List Mountpoint) :
    (fs.updateMountpoints mountpoints).Consistent where
  devices_keyed := h.devices_keyed
  own_device := fun _ hm => (List.mem_filter.1 hm).2
  indexed := MountTable.forSubvolume_ofMountpoints _
  tree_keyed := h.tree_keyed.attach _
  normal_paths := h.tree_keyed.forall_path_attach _ h.normal_paths
  attached := h.tree_keyed.isAttached_attach _

theorem Consistent.updateSubvolumes (h : fs.Consistent) {subvolumes : List Subvolume}
    (hnormal : ∀ s ∈ subvolumes, InternalPath.IsNormal s.path) :
    (fs.updateSubvolumes subvolumes).Consistent where
  devices_keyed := h.devices_keyed
  own_device := h.own_device
  indexed := h.indexed
  tree_keyed := (SubvolumeTree.isKeyed_ofSubvolumes subvolumes).attach _
  normal_paths := (SubvolumeTree.isKeyed_ofSubvolumes subvolumes).forall_path_attach _
    (SubvolumeTree.forall_path_ofSubvolumes InternalPath.isNormal_root hnormal)
  attached := (SubvolumeTree.isKeyed_ofSubvolumes subvolumes).isAttached_attach _

theorem Consistent.setLabel (h : fs.Consistent) (label : Option String) :
    (fs.setLabel label).Consistent :=
  { h with }

theorem Consistent.setDefault (h : fs.Consistent) (defaultId : Nat) :
    Consistent { fs with defaultId } :=
  { h with }

end Filesystem

/-! ## Listed subvolumes -/

namespace Listing

/-- A listed subvolume has a path in normal form. -/
theorem isNormal_path_of_readRow {row : List Char} {s : Subvolume}
    (h : readRow row = .ok (some s)) : InternalPath.IsNormal s.path := by
  rw [readRow] at h
  split at h
  · split at h
    · contradiction
    · split at h
      · contradiction
      · split at h
        · cases h
        · obtain rfl := Option.some.inj (Except.ok.inj h)
          exact InternalPath.isNormal_normalize _
  · contradiction

theorem isNormal_path_of_readRows {rows : List (List Char)} {subvolumes : List Subvolume}
    (h : readRows rows = .ok subvolumes) : ∀ s ∈ subvolumes, InternalPath.IsNormal s.path := by
  induction rows generalizing subvolumes with
  | nil =>
    obtain rfl := Except.ok.inj h
    exact fun _ hs => absurd hs List.not_mem_nil
  | cons row rows ih =>
    rw [readRows] at h
    split at h
    · exact ih h
    · cases hrow : readRow row with
      | error fault =>
        rw [hrow] at h
        contradiction
      | ok subvolume =>
        cases hrows : readRows rows with
        | error e =>
          simp [hrow, hrows, Except.map] at h
        | ok rest =>
          simp only [hrow, hrows, Except.map, Except.ok.injEq] at h
          subst h
          intro s hs
          rcases List.mem_append.1 hs with hs | hs
          · obtain rfl := Option.mem_toList.1 hs
            exact isNormal_path_of_readRow hrow
          · exact ih hrows s hs

theorem isNormal_path_of_readSubvolumes {listing : String} {subvolumes : List Subvolume}
    (h : readSubvolumes listing = .ok subvolumes) :
    ∀ s ∈ subvolumes, InternalPath.IsNormal s.path := by
  rw [readSubvolumes] at h
  cases hrows : readRows ((Text.lines listing.toList).drop 2) with
  | error e =>
    rw [hrows] at h
    contradiction
  | ok rest =>
    rw [hrows] at h
    obtain rfl := Except.ok.inj h
    intro s hs
    rcases List.mem_cons.1 hs with rfl | hs
    · exact InternalPath.isNormal_root
    · exact isNormal_path_of_readRows hrows s hs

end Listing

/-- The subvolumes that a host lists have paths in normal form. -/
theorem Query.yields_subvolumes (mount : VfsPath) :
    (Query.subvolumes mount).Yields fun subvolumes =>
      ∀ s ∈ subvolumes, InternalPath.IsNormal s.path := by
  refine Yields.bind (yields_true (Query.inspect (.subvolumes mount))) fun output _ => ?_
  refine yields_ofExcept fun subvolumes h => ?_
  cases hprinted : output.printed with
  | error e =>
    rw [hprinted] at h
    contradiction
  | ok listing =>
    rw [hprinted] at h
    exact Listing.isNormal_path_of_readSubvolumes h

namespace Filesystem

/-! ## What every operation keeps -/

/-- A property of filesystems that no replacement of a part destroys. -/
structure IsStable (p : Filesystem → Prop) : Prop where
  mountpoints : ∀ fs mountpoints, p fs → p (fs.updateMountpoints mountpoints)
  subvolumes : ∀ fs subvolumes, (∀ s ∈ subvolumes, InternalPath.IsNormal s.path) → p fs →
    p (fs.updateSubvolumes subvolumes)
  label : ∀ fs label, p fs → p (fs.setLabel label)
  defaultId : ∀ (fs : Filesystem) (defaultId : Nat), p fs → p { fs with defaultId }

theorem isStable_consistent : IsStable Consistent where
  mountpoints := fun _ mountpoints h => h.updateMountpoints mountpoints
  subvolumes := fun _ _ hnormal h => h.updateSubvolumes hnormal
  label := fun _ label h => h.setLabel label
  defaultId := fun _ defaultId h => h.setDefault defaultId

/-- What a filesystem lies on and is known by is never replaced. -/
theorem isStable_identity (uuid : String) (devices : DeviceSet) :
    IsStable fun fs => fs.uuid = uuid ∧ fs.devices = devices where
  mountpoints := fun _ _ h => h
  subvolumes := fun _ _ _ h => h
  label := fun _ _ h => h
  defaultId := fun _ _ h => h

variable {p : Filesystem → Prop}

theorem IsStable.refreshMounts (h : IsStable p) : Filesystem.refreshMounts.Preserves p :=
  (Update.preserves_ofQuery _).bind fun mountpoints =>
    Update.preserves_modify fun fs hfs => h.mountpoints fs mountpoints hfs

theorem IsStable.refreshSubvolumes (h : IsStable p) : Filesystem.refreshSubvolumes.Preserves p := by
  refine Update.preserves_get.bind fun fs => ?_
  cases fs.handle? with
  | none => exact Update.preserves_pure ()
  | some mount =>
    refine Update.preserves_ofQuery_bind (Query.yields_subvolumes mount) fun subvolumes hnormal => ?_
    exact Update.preserves_modify fun fs hfs => h.subvolumes fs subvolumes hnormal hfs

theorem IsStable.refreshDefault (h : IsStable p) : Filesystem.refreshDefault.Preserves p := by
  refine Update.preserves_get.bind fun fs => ?_
  cases fs.handle? with
  | none => exact Update.preserves_pure ()
  | some mount =>
    refine (Update.preserves_ofQuery (Query.defaultSubvolume mount)).bind fun defaultId => ?_
    exact Update.preserves_modify fun fs hfs => h.defaultId fs defaultId hfs

theorem IsStable.refresh (h : IsStable p) : Filesystem.refresh.Preserves p :=
  h.refreshMounts.bind fun _ => h.refreshSubvolumes.bind fun _ => h.refreshDefault

theorem IsStable.carryOut (h : IsStable p) (change : Change) :
    (Filesystem.carryOut change).Preserves p := by
  -- Planning and mutating leave the filesystem alone, so that only the refresh matters.
  refine Update.preserves_get.bind fun fs => ?_
  refine (Update.preserves_ofQuery _).bind fun mutation => ?_
  refine (Update.preserves_ofQuery _).bind fun _ => ?_
  exact h.refresh.bind fun _ => Update.preserves_pure mutation

/-- No operation destroys a stable property, whether or not it fails. -/
theorem IsStable.perform (h : IsStable p) (operation : Operation) :
    operation.perform.Preserves p := by
  cases operation with
  | updateMountpoints mountpoints =>
    exact Update.preserves_modify fun fs hfs => h.mountpoints fs mountpoints hfs
  | updateSubvolumes subvolumes normal =>
    exact Update.preserves_modify fun fs hfs => h.subvolumes fs subvolumes normal hfs
  | setLabel label => exact Update.preserves_modify fun fs hfs => h.label fs label hfs
  | refresh => exact h.refresh
  | refreshMounts => exact h.refreshMounts
  | refreshSubvolumes => exact h.refreshSubvolumes
  | refreshDefault => exact h.refreshDefault
  | carryOut change => exact (h.carryOut change).bind fun _ => Update.preserves_pure ()

theorem IsStable.step (h : IsStable p) {fs fs' : Filesystem} (hstep : Step fs fs') (hfs : p fs) :
    p fs' := by
  obtain ⟨operation, τ, host, state, rfl⟩ := hstep
  exact h.perform operation τ host state fs hfs

/-- A stable property holds along every run that begins with it. -/
theorem IsStable.run (h : IsStable p) {origin fs : Filesystem}
    (hrun : Relation.ReflTransGen Step origin fs) (horigin : p origin) : p fs := by
  induction hrun with
  | refl => exact horigin
  | tail _ hstep ih => exact h.step hstep ih

/-! ## Discovered filesystems -/

/-- A loaded filesystem has every stable property that it has when it is new. -/
theorem IsStable.yields_load (h : IsStable p) (mountpoints : List Mountpoint)
    {listed : ListedFilesystem} (hnew : p (.new listed.uuid listed.label listed.devices)) :
    (Query.load mountpoints listed).Yields p :=
  (h.refreshSubvolumes.bind fun _ => h.refreshDefault).yields_final (h.mountpoints _ _ hnew)

theorem yields_loadAll {mountpoints : List Mountpoint} {listed : List ListedFilesystem}
    {loaded : FilesystemMap} (h : ∀ entry ∈ loaded.entries, entry.2.Consistent) :
    (Query.loadAll mountpoints listed loaded).Yields fun found =>
      ∀ entry ∈ found.entries, entry.2.Consistent := by
  -- The map has what was loaded so far; the induction is on what is still to be loaded.
  induction listed generalizing loaded with
  | nil => exact Query.yields_pure h
  | cons first rest ih =>
    have hfirst : (Query.load mountpoints first).Yields Consistent :=
      isStable_consistent.yields_load mountpoints
        (consistent_new first.uuid first.label first.devices)
    exact hfirst.bind fun fs hfs => ih (OrderedMap.forall_mem_entries_insert hfs h)

theorem yields_discover :
    Query.discover.Yields fun found => ∀ entry ∈ found.entries, entry.2.Consistent := by
  refine (Query.yields_true _).bind fun listed _ => ?_
  refine (Query.yields_true _).bind fun mountpoints _ => ?_
  exact yields_loadAll fun _ hentry => absurd hentry List.not_mem_nil

/-! ## Reachable filesystems -/

theorem IsOrigin.consistent {origin : Filesystem} (h : origin.IsOrigin) : origin.Consistent := by
  cases h with
  | new uuid label devices => exact consistent_new uuid label devices
  | discovered hfound hfs => exact yields_discover _ _ _ _ hfound _ hfs

/-- Every reachable filesystem is consistent. -/
theorem Reachable.consistent {fs : Filesystem} (h : fs.Reachable) : fs.Consistent := by
  obtain ⟨origin, horigin, hrun⟩ := h
  exact isStable_consistent.run hrun horigin.consistent

/-- In every state that a run leads to from a new or a discovered filesystem, each mount is of one of
its devices; the mounts found for a subvolume are just those of the table, in its order, and the
subvolume has the same; the tree has the top-level subvolume as it has to be and every other once
under its own identifier, ascending, with a path in normal form. Identity and devices are those that
the run began with. -/
theorem crossReferences_of_run {origin fs : Filesystem} (horigin : origin.IsOrigin)
    (hrun : Relation.ReflTransGen Step origin fs) :
    (∀ m ∈ fs.mounts.mountpoints, ∃ device ∈ fs.devices.toList, device.sameAs m.device) ∧
    (∀ id, fs.mounts.forSubvolume id =
      fs.mounts.mountpoints.filter fun m => m.subvolumeId = id) ∧
    (∃ root others, fs.subvolumes.toList = root :: others ∧ root.id = Subvolume.topLevelId ∧
      root.path = "/" ∧ root.parent = none ∧ (others.map Subvolume.id).Pairwise (· < ·) ∧
      ∀ s ∈ others, s.id ≠ Subvolume.topLevelId) ∧
    (∀ id s, fs.subvolumes.get? id = some s ↔ s ∈ fs.subvolumes.toList ∧ s.id = id) ∧
    (∀ s ∈ fs.subvolumes.toList, InternalPath.normalize s.path = s.path) ∧
    (∀ s ∈ fs.subvolumes.toList, s.mountpoints = fs.mounts.forSubvolume s.id) ∧
    fs.uuid = origin.uuid ∧ fs.devices = origin.devices := by
  have h : fs.Consistent := isStable_consistent.run hrun horigin.consistent
  -- Who the filesystem is, is another stable property of the same run.
  have hidentity := (isStable_identity origin.uuid origin.devices).run hrun ⟨rfl, rfl⟩
  refine ⟨?_, h.indexed, ?_, fun _ _ => h.tree_keyed.get?_eq_some_iff, h.normal_paths, h.attached,
    hidentity⟩
  · intro m hm
    exact h.devices_keyed.hasDevice_iff.1 (h.own_device m hm)
  · refine ⟨fs.subvolumes.root, fs.subvolumes.others.values, rfl, h.tree_keyed.root_id,
      h.tree_keyed.root_path, h.tree_keyed.root_parent, h.tree_keyed.ids_ascending, ?_⟩
    intro s hs
    obtain ⟨key, hentry⟩ := OrderedMap.mem_values_iff.1 hs
    exact h.tree_keyed.id_ne_topLevelId hentry

/-- The run of a new filesystem that learns a listing with a misstated top level and a repeated
identifier, then mounts of which one is of a foreign device, and then fails to refresh. -/
theorem crossReferences_of_failing_run :
    let origin := Filesystem.new "1111" none [⟨"/dev/sda"⟩, ⟨"/dev//sda/"⟩]
    let listing : List Subvolume :=
      [.ofListed 5 "/odd" (some 1), .ofListed 257 "/old" (some 5), .ofListed 257 "@home" (some 5)]
    let mountpoints : List Mountpoint :=
      [⟨⟨"/home"⟩, ⟨"/dev/sda"⟩, 257, "/@home"⟩, ⟨⟨"/srv"⟩, ⟨"/dev/sdb"⟩, 257, "/x"⟩]
    let fs := (origin.updateSubvolumes listing).updateMountpoints mountpoints
    origin.IsOrigin ∧ Relation.ReflTransGen Step origin fs ∧
      fs.mounts.mountpoints = mountpoints.take 1 ∧ (fs.subvolumes.toList.map Subvolume.id) = [5, 257] ∧
      (∀ id, fs.mounts.forSubvolume id =
        fs.mounts.mountpoints.filter fun m => m.subvolumeId = id) ∧
      fs.uuid = origin.uuid := by
  intro origin listing mountpoints fs
  have horigin : origin.IsOrigin := .new _ _ _
  have hnormal : ∀ s ∈ listing, InternalPath.IsNormal s.path := by decide
  have hrun : Relation.ReflTransGen Step origin fs := by
    refine .head (step_updateSubvolumes origin hnormal) ?_
    refine .head (step_updateMountpoints _ mountpoints) (.single ?_)
    -- The refresh fails at its first question.
    exact ⟨.refresh, Unit, unreachableHost, (), rfl⟩
  obtain ⟨-, hindexed, -, -, -, -, huuid, -⟩ := crossReferences_of_run horigin hrun
  exact ⟨horigin, hrun, by decide, by decide, hindexed, huuid⟩

end Filesystem

end BtrfsTopology
