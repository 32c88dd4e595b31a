import BtrfsTopology.Proofs.Consistency
import BtrfsTopology.Proofs.Inspection
import BtrfsTopology.Proofs.Replacement
import Mathlib.Data.Set.Basic

/-!
# Discovering and refreshing

A discovery reads the mounts of the host once for all filesystems and loads one filesystem after
another, where a refresh reads the mounts for one filesystem. Both then learn the contents of the
filesystem through its first mount, so with a host that does not change they come to the same.

## Main definitions

* `Query.contents`, `Filesystem.withContents` — what is learned of a filesystem through a mount
* `ListedFilesystem.last?` — the last listed filesystem with an identity
* `Query.Discovers` — what a discovery that succeeded has read and found

## Main results

* `Filesystem.final_refreshContents_of_mounted`, `Filesystem.final_refresh` — what refreshing leaves
* `Query.get?_of_loadAll`, `Query.exists_load_of_loadAll` — of listed filesystems with the same
  identity the last is found
-/

namespace BtrfsTopology

/-! ## Contents -/

/-- The subvolumes and the default subvolume of the filesystem mounted at a path. -/
def Query.contents (mount : VfsPath) : Query (List Subvolume × Nat) := do
  let subvolumes ← Query.subvolumes mount
  let defaultId ← Query.defaultSubvolume mount
  return (subvolumes, defaultId)

namespace Filesystem

/-- The filesystem with other contents. -/
def withContents (fs : Filesystem) (contents : List Subvolume × Nat) : Filesystem :=
  { fs.updateSubvolumes contents.1 with defaultId := contents.2 }

/-- Learns all parts anew that are asked for through a mount. -/
def refreshContents : Update Filesystem Unit := do
  refreshSubvolumes
  refreshDefault

variable {fs fs' : Filesystem} {mount : VfsPath} {mountpoints : List Mountpoint}

theorem asks_refreshContents : refreshContents.Asks Request.IsInspection :=
  asks_refreshSubvolumes.bind fun _ => asks_refreshDefault

theorem handle?_eq_none_iff : fs.handle? = none ↔ fs.isMounted = false := by
  simp [handle?, MountTable.first?, isMounted, MountTable.isEmpty]

theorem final_refreshContents_of_unmounted (h : fs.handle? = none) :
    refreshContents.final fs = pure fs := by
  rw [refreshContents, refreshSubvolumes, bind_assoc, Update.final_get_bind, h, pure_bind,
    refreshDefault, Update.final_get_bind, h, Update.final_pure]

/-- Both questions go through the same mount, as learning subvolumes leaves the mounts alone. -/
theorem final_refreshContents_of_mounted (h : fs.handle? = some mount) :
    refreshContents.final fs = do return fs.withContents (← Query.contents mount) := by
  rw [refreshContents, refreshSubvolumes, bind_assoc, Update.final_get_bind, h, Query.contents]
  simp only [bind_assoc]
  refine (Update.final_ofQuery_bind (Query.subvolumes mount) _).trans
    (bind_congr fun subvolumes => ?_)
  have hnext : (fs.updateSubvolumes subvolumes).handle? = some mount := h
  rw [Update.final_modify_bind, refreshDefault, Update.final_get_bind, hnext]
  exact Update.final_ofQuery_bind (Query.defaultSubvolume mount) _

/-- A refresh reads the mounts and then learns the contents. -/
theorem final_refresh (fs : Filesystem) :
    refresh.final fs =
      Query.mounts >>= fun mountpoints =>
        refreshContents.final (fs.updateMountpoints mountpoints) := by
  rw [refresh, refreshMounts, bind_assoc]
  exact Update.final_ofQuery_bind Query.mounts _

section Value

variable {τ : Type} {host : Dialogue.Host τ} {state : τ}

/-- What was learned of the contents is learned again after the same mounts were read again. -/
theorem final_refreshContents_again
    (h : ((refreshContents.final (fs.updateMountpoints mountpoints)).outcome host state).value =
      .ok fs') :
    ((refreshContents.final (fs'.updateMountpoints mountpoints)).outcome host state).value =
      .ok fs' := by
  cases hhandle : (fs.updateMountpoints mountpoints).handle? with
  | none =>
    -- Nothing was asked, and the mounts are the same already.
    rw [final_refreshContents_of_unmounted hhandle] at h
    obtain rfl := Query.pure_eq_ok_iff.1 h
    rw [updateMountpoints_updateMountpoints, final_refreshContents_of_unmounted hhandle]
    rfl
  | some mount =>
    rw [final_refreshContents_of_mounted hhandle, Query.bind_eq_ok_iff] at h
    obtain ⟨contents, hcontents, hvalue⟩ := h
    obtain rfl := Query.pure_eq_ok_iff.1 hvalue
    have hhandle' : (((fs.updateMountpoints mountpoints).withContents contents).updateMountpoints
        mountpoints).handle? = some mount := hhandle
    rw [final_refreshContents_of_mounted hhandle', Query.bind_eq_ok_iff]
    exact ⟨contents, hcontents, rfl⟩

/-- A filesystem that is not mounted keeps the contents that it had. -/
theorem eq_of_final_refreshContents_of_unmounted
    (h : ((refreshContents.final fs).outcome host state).value = .ok fs')
    (hmounted : fs'.isMounted = false) : fs' = fs := by
  cases hhandle : fs.handle? with
  | none =>
    rw [final_refreshContents_of_unmounted hhandle] at h
    exact (Query.pure_eq_ok_iff.1 h).symm
  | some mount =>
    rw [final_refreshContents_of_mounted hhandle, Query.bind_eq_ok_iff] at h
    obtain ⟨contents, -, hvalue⟩ := h
    obtain rfl := Query.pure_eq_ok_iff.1 hvalue
    -- Learning contents leaves the mounts alone.
    have hnone : fs.handle? = none := handle?_eq_none_iff.2 hmounted
    rw [hhandle] at hnone
    contradiction

end Value

end Filesystem

/-! ## Loading -/

/-- The last listed filesystem with an identity. -/
def ListedFilesystem.last? (listed : List ListedFilesystem) (uuid : String) :
    Option ListedFilesystem :=
  listed.reverse.find? fun record => record.uuid = uuid

/-- The filesystem that a record stands for, without mounts. -/
def ListedFilesystem.toFilesystem (record : ListedFilesystem) : Filesystem :=
  .new record.uuid record.label record.devices

/-- Those of the given mounts that are of the record's devices. -/
def ListedFilesystem.ownMounts (record : ListedFilesystem) (mountpoints : List Mountpoint) :
    List Mountpoint :=
  mountpoints.filter fun m => record.toFilesystem.hasDevice m.device

namespace ListedFilesystem

variable {listed : List ListedFilesystem} {record : ListedFilesystem} {uuid : String}

theorem last?_eq_some_iff :
    last? listed uuid = some record ↔ record.uuid = uuid ∧
      ∃ before after, listed = before ++ record :: after ∧ ∀ other ∈ after, other.uuid ≠ uuid := by
  rw [last?, List.find?_eq_some_iff_append, decide_eq_true_iff]
  refine and_congr_right fun _ => ?_
  -- What stands before the record in the reversed list stands behind it in the list.
  constructor
  · rintro ⟨after, before, heq, hafter⟩
    refine ⟨before.reverse, after.reverse, ?_, fun other hother => ?_⟩
    · simpa using congrArg List.reverse heq
    · simpa using hafter other (List.mem_reverse.1 hother)
  · rintro ⟨before, after, rfl, hafter⟩
    refine ⟨after.reverse, before.reverse, by simp, fun other hother => ?_⟩
    simpa using hafter other (List.mem_reverse.1 hother)

/-- Of all mounts only its own are entered into a filesystem. -/
theorem mounted_eq (record : ListedFilesystem) (mountpoints : List Mountpoint) :
    record.mounted mountpoints =
      { record.toFilesystem with
        mounts := .ofMountpoints (record.ownMounts mountpoints)
        subvolumes := SubvolumeTree.bare.attach (.ofMountpoints (record.ownMounts mountpoints)) } :=
  rfl

theorem last?_eq_none_iff : last? listed uuid = none ↔ ∀ record ∈ listed, record.uuid ≠ uuid := by
  simp [last?]

end ListedFilesystem

namespace Query

open Filesystem

variable {τ : Type} {host : Dialogue.Host τ} {state : τ} {mountpoints : List Mountpoint}
  {record : ListedFilesystem} {listed before after : List ListedFilesystem}
  {loaded found : FilesystemMap} {fs : Filesystem} {uuid : String}

/-- A loaded filesystem has the identity that it is listed with. -/
theorem uuid_of_load (h : ((Query.load mountpoints record).outcome host state).value = .ok fs) :
    fs.uuid = record.uuid :=
  ((isStable_identity record.uuid (.ofDevices record.devices)).yields_load mountpoints
    ⟨rfl, rfl⟩ τ host state fs h).1

/-- Filesystems are loaded in turn. -/
theorem loadAll_append (mountpoints : List Mountpoint) (before after : List ListedFilesystem)
    (loaded : FilesystemMap) :
    Query.loadAll mountpoints (before ++ after) loaded =
      Query.loadAll mountpoints before loaded >>= Query.loadAll mountpoints after := by
  induction before generalizing loaded with
  | nil => exact (pure_bind _ _).symm
  | cons first rest ih => simp only [List.cons_append, Query.loadAll, bind_assoc, ih]

/-- Loading filesystems with other identities leaves what was loaded. -/
theorem get?_of_loadAll
    (h : ((Query.loadAll mountpoints listed loaded).outcome host state).value = .ok found)
    (hlisted : ∀ record ∈ listed, record.uuid ≠ uuid) : found.get? uuid = loaded.get? uuid := by
  induction listed generalizing loaded state with
  | nil => rw [pure_eq_ok_iff.1 h]
  | cons first rest ih =>
    obtain ⟨fs, hfs, hrest⟩ := bind_eq_ok_iff.1 h
    have hne : fs.uuid ≠ uuid := uuid_of_load hfs ▸ hlisted first List.mem_cons_self
    rw [ih hrest fun record hrecord => hlisted record (List.mem_cons_of_mem first hrecord),
      OrderedMap.get?_insert, if_neg hne]

/-- Of filesystems with the same identity the last is found, as it was loaded after those before
it. -/
theorem exists_load_of_loadAll
    (h : ((Query.loadAll mountpoints (before ++ record :: after) loaded).outcome host state).value =
      .ok found)
    (hafter : ∀ other ∈ after, other.uuid ≠ record.uuid) :
    ∃ earlier fs,
      ((Query.loadAll mountpoints before loaded).outcome host state).value = .ok earlier ∧
      ((Query.load mountpoints record).outcome host
        ((Query.loadAll mountpoints before loaded).outcome host state).host).value = .ok fs ∧
      found.get? record.uuid = some fs := by
  rw [loadAll_append] at h
  obtain ⟨earlier, hearlier, hrest⟩ := bind_eq_ok_iff.1 h
  obtain ⟨fs, hfs, hlater⟩ := bind_eq_ok_iff.1 hrest
  refine ⟨earlier, fs, hearlier, hfs, ?_⟩
  rw [get?_of_loadAll hlater hafter, OrderedMap.get?_insert, if_pos (uuid_of_load hfs)]

/-! ## Discovering -/

/-- A discovery that succeeds reads the listings of filesystems and of mounts and finds the given
filesystems. -/
structure Discovers (host : Dialogue.Host τ) (state : τ) (listed : List ListedFilesystem)
    (mountpoints : List Mountpoint) (found : FilesystemMap) : Prop where
  filesystems : (Query.filesystems.outcome host state).value = .ok listed
  mounts : (Query.mounts.outcome host (Query.filesystems.outcome host state).host).value =
    .ok mountpoints
  discover : (Query.discover.outcome host state).value = .ok found

theorem exists_discovers (h : (Query.discover.outcome host state).value = .ok found) :
    ∃ listed mountpoints, Discovers host state listed mountpoints found := by
  obtain ⟨listed, hlisted, hrest⟩ := bind_eq_ok_iff.1 h
  obtain ⟨mountpoints, hmountpoints, -⟩ := bind_eq_ok_iff.1 hrest
  exact ⟨listed, mountpoints, hlisted, hmountpoints, h⟩

/-- The state of the host in which a discovery begins to load filesystems. -/
def stateToLoad (host : Dialogue.Host τ) (state : τ) : τ :=
  (Query.mounts.outcome host (Query.filesystems.outcome host state).host).host

theorem Discovers.loadAll (h : Discovers host state listed mountpoints found) :
    ((Query.loadAll mountpoints listed .empty).outcome host (stateToLoad host state)).value =
      .ok found := by
  obtain ⟨listed', hlisted, hrest⟩ := bind_eq_ok_iff.1 h.discover
  obtain rfl := Except.ok.inj (hlisted.symm.trans h.filesystems)
  obtain ⟨mountpoints', hmountpoints, hload⟩ := bind_eq_ok_iff.1 hrest
  obtain rfl := Except.ok.inj (hmountpoints.symm.trans h.mounts)
  exact hload

/-- A discovery finds no filesystem that is not listed. -/
theorem Discovers.exists_last? (h : Discovers host state listed mountpoints found)
    (hfs : found.get? uuid = some fs) :
    ∃ record, ListedFilesystem.last? listed uuid = some record := by
  cases hlast : ListedFilesystem.last? listed uuid with
  | some record => exact ⟨record, rfl⟩
  | none =>
    rw [get?_of_loadAll h.loadAll (ListedFilesystem.last?_eq_none_iff.1 hlast),
      OrderedMap.get?_empty] at hfs
    contradiction

/-- What a discovery finds under an identity is what it loaded for the last record with it. -/
theorem Discovers.exists_load (h : Discovers host state listed mountpoints found)
    (hlast : ListedFilesystem.last? listed uuid = some record) :
    ∃ before after earlier fs, listed = before ++ record :: after ∧
      ((Query.loadAll mountpoints before .empty).outcome host (stateToLoad host state)).value =
        .ok earlier ∧
      ((Query.load mountpoints record).outcome host
        ((Query.loadAll mountpoints before .empty).outcome host
          (stateToLoad host state)).host).value = .ok fs ∧
      found.get? uuid = some fs := by
  obtain ⟨rfl, before, after, rfl, hafter⟩ := ListedFilesystem.last?_eq_some_iff.1 hlast
  obtain ⟨earlier, fs, hearlier, hload, hfound⟩ := exists_load_of_loadAll h.loadAll hafter
  exact ⟨before, after, earlier, fs, rfl, hearlier, hload, hfound⟩

end Query

/-! ## Discovering and refreshing with a host that does not change -/

namespace Filesystem

variable {τ : Type} {host : Dialogue.Host τ} {states : Set τ} {state : τ}
  {mountpoints : List Mountpoint} {record : ListedFilesystem} {found : FilesystemMap}
  {fs : Filesystem}

/-- What was loaded for a record is what a refresh of the unmounted filesystem leaves, and a further
refresh changes nothing. -/
theorem refresh_of_load (hsteady : host.IsSteady states) (hstate : state ∈ states)
    (hmounts : ∀ later ∈ states, (Query.mounts.outcome host later).value = .ok mountpoints)
    (hload : ((Query.load mountpoints record).outcome host state).value = .ok fs) {later : τ}
    (hlater : later ∈ states) :
    (refresh.outcome record.toFilesystem host later).value = (.ok (), fs) ∧
      (refresh.outcome fs host later).value = (.ok (), fs) := by
  have hread : (Query.mounts.outcome host later).host ∈ states :=
    hsteady.host_query Query.asks_mounts hlater
  have hcontents (start : Filesystem) :
      ((refreshContents.final start).outcome host (Query.mounts.outcome host later).host).value =
        ((refreshContents.final start).outcome host state).value :=
    hsteady.value_query asks_refreshContents.final hstate hread
  rw [← Update.outcome_final_eq_ok_iff, ← Update.outcome_final_eq_ok_iff, final_refresh,
    final_refresh, Query.bind_eq_ok_iff, Query.bind_eq_ok_iff]
  refine ⟨⟨mountpoints, hmounts later hlater, ?_⟩, ⟨mountpoints, hmounts later hlater, ?_⟩⟩
  · rw [hcontents]
    exact hload
  · rw [hcontents]
    exact final_refreshContents_again hload

/-- A filesystem without mounts has the contents of a new one. -/
theorem contents_of_load_of_unmounted
    (hload : ((Query.load mountpoints record).outcome host state).value = .ok fs)
    (hmounted : fs.isMounted = false) :
    fs.subvolumes = .bare ∧ fs.defaultId = Subvolume.topLevelId := by
  obtain rfl := eq_of_final_refreshContents_of_unmounted hload hmounted
  have hempty : (!(record.ownMounts mountpoints).isEmpty) = false := hmounted
  have hown : record.ownMounts mountpoints = [] := by simpa using hempty
  refine ⟨?_, rfl⟩
  rw [ListedFilesystem.mounted_eq, hown]
  rfl

/-- With a host that does not change, discovering and refreshing agree. What is found under an
identity is what a refresh leaves of the last listed filesystem with it, when that is new; a refresh
of what was found succeeds and changes nothing, and neither does a further discovery. A filesystem
that is not mounted has the top-level subvolume alone, which is its default. -/
theorem discover_agrees_with_refresh (hsteady : host.IsSteady states) (hstate : state ∈ states)
    (h : (Query.discover.outcome host state).value = .ok found) :
    ∃ listed, (Query.filesystems.outcome host state).value = .ok listed ∧
      (∀ uuid fs, found.get? uuid = some fs →
        ∃ record, ListedFilesystem.last? listed uuid = some record ∧
          (∀ later ∈ states,
            (refresh.outcome (.new record.uuid record.label record.devices) host later).value =
              (.ok (), fs) ∧
            (refresh.outcome fs host later).value = (.ok (), fs)) ∧
          (fs.isMounted = false →
            fs.subvolumes = .bare ∧ fs.defaultId = Subvolume.topLevelId)) ∧
      (Query.discover.outcome host state).host ∈ states ∧
      ∀ later ∈ states, (Query.discover.outcome host later).value = .ok found := by
  obtain ⟨listed, mountpoints, hdiscovers⟩ := Query.exists_discovers h
  have hasked : (Query.filesystems.outcome host state).host ∈ states :=
    hsteady.host_query Query.asks_filesystems hstate
  have hmounts : ∀ later ∈ states, (Query.mounts.outcome host later).value = .ok mountpoints :=
    fun later hlater =>
      (hsteady.value_query Query.asks_mounts hasked hlater).trans hdiscovers.mounts
  refine ⟨listed, hdiscovers.filesystems, fun uuid fs hfs => ?_,
    hsteady.host_query Query.asks_discover hstate, fun later hlater => ?_⟩
  · obtain ⟨record, hlast⟩ := hdiscovers.exists_last? hfs
    obtain ⟨before, -, -, fs', -, -, hload, hfs'⟩ := hdiscovers.exists_load hlast
    obtain rfl := Option.some.inj (hfs.symm.trans hfs')
    -- The record was loaded in a state in which others had been loaded before it.
    have hreached := hsteady.host_query (Query.asks_loadAll mountpoints before .empty)
      (hsteady.host_query Query.asks_mounts hasked)
    exact ⟨record, hlast, fun later hlater => refresh_of_load hsteady hreached hmounts hload hlater,
      contents_of_load_of_unmounted hload⟩
  · exact (hsteady.value_query Query.asks_discover hstate hlater).trans h

/-- A host that counts what it is asked. It lists one filesystem twice, mounted when it is listed
last, and one that is not mounted. -/
theorem discover_agrees_with_refresh_counting :
    let host : Dialogue.Host Nat
      | .inspect .filesystems, count =>
        (.ok ⟨"btrfs", 0, "Label: 'old'  uuid: 1111\ndevid 1 path /dev/sdz\n" ++
          "Label: none  uuid: 2222\ndevid 1 path /dev/sdb\n" ++
          "Label: 'data'  uuid: 1111\ndevid 1 path /dev/sda\n", ""⟩, count + 1)
      | .inspect .mounts, count =>
        (.ok ⟨"findmnt", 0, "TARGET=\"/\" SOURCE=\"/dev/sda\" FSTYPE=\"btrfs\" " ++
          "OPTIONS=\"rw,subvolid=256,subvol=/@\"\n", ""⟩, count + 1)
      | .inspect (.subvolumes _), count =>
        (.ok ⟨"btrfs", 0, "ID\n--\n256\t9\t5\t5\t\t<FS_TREE>/@\n", ""⟩, count + 1)
      | .inspect (.defaultSubvolume _), count =>
        (.ok ⟨"btrfs", 0, "ID 256 gen 9 top level 5 path @\n", ""⟩, count + 1)
      | .mutate _, count => (.ok (), count)
      | .resolveDevice device, count => (device, count)
    let new := Filesystem.new "1111" (some "data") [⟨"/dev/sda"⟩]
    let fs := (new.updateMountpoints [⟨⟨"/"⟩, ⟨"/dev/sda"⟩, 256, "/@"⟩]).withContents
      ([.topLevel, .ofListed 256 "@" (some 5)], 256)
    let found : FilesystemMap := ⟨[("1111", fs), ("2222", .new "2222" none [⟨"/dev/sdb"⟩])]⟩
    host.IsSteady Set.univ ∧ (Query.discover.outcome host 0).value = .ok found ∧
      (refresh.outcome new host 4).value = (.ok (), fs) ∧
      (refresh.outcome fs host 7).value = (.ok (), fs) ∧
      (Query.discover.outcome host 10).value = .ok found := by
  intro host new fs found
  have hsteady : host.IsSteady Set.univ :=
    ⟨fun query _ _ _ _ => by cases query <;> rfl, fun _ _ _ => Set.mem_univ _⟩
  have hdiscover : (Query.discover.outcome host 0).value = .ok found := by decide +kernel
  obtain ⟨listed, hlisted, hfound, -, hagain⟩ :=
    discover_agrees_with_refresh hsteady (Set.mem_univ 0) hdiscover
  obtain ⟨record, hlast, hrefresh, -⟩ := hfound "1111" fs rfl
  have hrecord : (Query.filesystems.outcome host 0).value.map (ListedFilesystem.last? · "1111") =
      .ok (some ⟨"1111", some "data", [⟨"/dev/sda"⟩]⟩) := by decide +kernel
  obtain rfl : record = ⟨"1111", some "data", [⟨"/dev/sda"⟩]⟩ := by
    rw [hlisted, Except.map, hlast] at hrecord
    exact Option.some.inj (Except.ok.inj hrecord)
  exact ⟨hsteady, hdiscover, (hrefresh 4 (Set.mem_univ _)).1, (hrefresh 7 (Set.mem_univ _)).2,
    hagain 10 (Set.mem_univ _)⟩

end Filesystem

end BtrfsTopology
