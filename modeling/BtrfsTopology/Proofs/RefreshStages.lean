import BtrfsTopology.Proofs.Script

/-!
# What a refresh that fails leaves behind

A refresh goes through three stages. Each asks one question at most and replaces one part of the
filesystem when the reply can be read; if it cannot be read the stage fails and replaces nothing. A
refresh that fails in some stage therefore keeps what the stages before it have learned, part by
part, and has touched nothing else. The last two stages are skipped for a filesystem that is not
mounted, which then loses its mounts and keeps all the rest.

## Main definitions

* `RefreshStage`, `RefreshStage.learn` — the stages of a refresh
* `RefreshStage.question?`, `Filesystem.learned` — what a stage asks, and what it makes of the reply
* `Filesystem.FailsIn` — a refresh fails in a stage
* `Filesystem.ownMounts`, `Filesystem.IsMountedBy`, `Filesystem.SameSettings` — the parts of a
  filesystem

## Main results

* `RefreshStage.outcome_learn_of_none`, `RefreshStage.outcome_learn_of_some` — how a stage goes
* `Filesystem.FailsIn.value_refresh` — a refresh leaves what the stages before the failing one left
* `Filesystem.refresh_leaves_stages_done` — what that is, part by part
-/

namespace BtrfsTopology

open Filesystem

variable {τ : Type} {host : Dialogue.Host τ} {state : τ} {fs fs' : Filesystem}

/-! ## Stages -/

/-- A stage of a refresh. -/
inductive RefreshStage where
  | mounts
  | subvolumes
  | default
  deriving DecidableEq, Repr

/-- What a reading tells, learned by a filesystem. -/
def Filesystem.learned (fs : Filesystem) : (query : Inspection) → query.Reading → Filesystem
  | .filesystems, _ => fs
  | .mounts, mountpoints => fs.updateMountpoints mountpoints
  | .subvolumes _, subvolumes => fs.updateSubvolumes subvolumes
  | .defaultSubvolume _, defaultId => { fs with defaultId := defaultId }

theorem Inspection.read_subvolumes_of_succeeded {mount : VfsPath} {output : CommandOutput}
    (h : output.succeeded = true) :
    Inspection.read (.subvolumes mount) (.ok output) = Listing.readSubvolumes output.stdout := by
  rw [Inspection.read, Except.bind, Inspection.readOutput, CommandOutput.printed, if_pos h]
  rfl

namespace RefreshStage

/-- What is done in a stage. -/
def learn : RefreshStage → Update Filesystem Unit
  | .mounts => refreshMounts
  | .subvolumes => refreshSubvolumes
  | .default => refreshDefault

/-- What is done before a stage. -/
def before : RefreshStage → Update Filesystem Unit
  | .mounts => pure ()
  | .subvolumes => refreshMounts
  | .default => do
    refreshMounts
    refreshSubvolumes

/-- What a stage asks about a filesystem. Of one that is not mounted only the mounts are asked. -/
def question? (fs : Filesystem) : RefreshStage → Option Inspection
  | .mounts => some .mounts
  | .subvolumes => fs.handle?.map .subvolumes
  | .default => fs.handle?.map .defaultSubvolume

/-- A question whose reading is learned: an error leaves the filesystem as it is. -/
theorem outcome_consult_learned (query : Inspection) :
    Update.outcome (do
        let reading ← Update.ofQuery (Query.consult query)
        modify fun fs => fs.learned query reading) fs host state =
      ⟨match query.read (host (.inspect query) state).1 with
        | .ok reading => (.ok (), fs.learned query reading)
        | .error e => (.error e, fs),
        [.inspect query], (host (.inspect query) state).2⟩ := by
  have hasked : (Update.ofQuery (Query.consult query)).outcome fs host state = _ :=
    Update.outcome_ofQuery _
  rw [Query.outcome_consult] at hasked
  cases hread : query.read (host (.inspect query) state).1 with
  | error e =>
    rw [hread] at hasked
    exact Update.outcome_bind_error hasked
  | ok reading =>
    rw [hread] at hasked
    exact Update.outcome_bind_ok hasked

variable {query : Inspection} {e : TopologyError}

/-- A stage that asks nothing does nothing. -/
theorem outcome_learn_of_none (stage : RefreshStage) (h : stage.question? fs = none) :
    stage.learn.outcome fs host state = ⟨(.ok (), fs), [], state⟩ := by
  cases stage with
  | mounts => contradiction
  | subvolumes =>
    rw [learn, refreshSubvolumes, Update.outcome_bind_ok Update.outcome_get,
      Option.map_eq_none_iff.1 h]
    rfl
  | default =>
    rw [learn, refreshDefault, Update.outcome_bind_ok Update.outcome_get,
      Option.map_eq_none_iff.1 h]
    rfl

/-- A stage that asks a question learns what the reply tells, or fails and leaves all as it is. -/
theorem outcome_learn_of_some (stage : RefreshStage) (h : stage.question? fs = some query) :
    stage.learn.outcome fs host state =
      ⟨match query.read (host (.inspect query) state).1 with
        | .ok reading => (.ok (), fs.learned query reading)
        | .error e => (.error e, fs),
        [.inspect query], (host (.inspect query) state).2⟩ := by
  rw [← outcome_consult_learned]
  cases stage with
  | mounts =>
    obtain rfl := Option.some.inj h
    rw [learn, refreshMounts, Query.mounts_eq_consult]
    rfl
  | subvolumes =>
    obtain ⟨mount, hmount, rfl⟩ := Option.map_eq_some_iff.1 h
    rw [learn, refreshSubvolumes, Update.outcome_bind_ok Update.outcome_get, hmount]
    rfl
  | default =>
    obtain ⟨mount, hmount, rfl⟩ := Option.map_eq_some_iff.1 h
    rw [learn, refreshDefault, Update.outcome_bind_ok Update.outcome_get, hmount]
    rfl

/-- A stage that fails leaves the filesystem as it is. -/
theorem eq_of_learn_error (stage : RefreshStage)
    (h : (stage.learn.outcome fs host state).value.1 = .error e) :
    (stage.learn.outcome fs host state).value.2 = fs := by
  cases hquestion : stage.question? fs with
  | none => rw [stage.outcome_learn_of_none hquestion]
  | some query =>
    rw [stage.outcome_learn_of_some hquestion] at h ⊢
    cases hread : query.read (host (.inspect query) state).1 with
    | error e => rfl
    | ok reading =>
      rw [hread] at h
      contradiction

/-- A stage that succeeds with a question has learned what the reply tells. -/
theorem exists_read_of_learn_ok (stage : RefreshStage)
    (hquestion : stage.question? fs = some query)
    (h : (stage.learn.outcome fs host state).value = (.ok (), fs')) :
    ∃ reading, query.read (host (.inspect query) state).1 = .ok reading ∧
      fs' = fs.learned query reading := by
  rw [stage.outcome_learn_of_some hquestion] at h
  cases hread : query.read (host (.inspect query) state).1 with
  | error e =>
    rw [hread] at h
    exact nomatch (Prod.mk.inj h).1
  | ok reading =>
    rw [hread] at h
    exact ⟨reading, rfl, (Prod.mk.inj h).2.symm⟩

/-- A refresh gets to every stage after those before it. -/
theorem exists_refresh_eq (stage : RefreshStage) :
    ∃ behind : Update Filesystem Unit, refresh = (do stage.before; stage.learn; behind) := by
  cases stage with
  | mounts => exact ⟨do refreshSubvolumes; refreshDefault, (pure_bind _ _).symm⟩
  | subvolumes => exact ⟨refreshDefault, rfl⟩
  | default =>
    refine ⟨pure (), ?_⟩
    simp only [before, learn, refresh, bind_assoc, bind_pure_unit]

end RefreshStage

/-! ## Failing in a stage -/

namespace Filesystem

/-- A refresh of the filesystem fails in a stage: those before it succeed, and it fails. -/
def FailsIn (fs : Filesystem) (host : Dialogue.Host τ) (state : τ) (stage : RefreshStage)
    (e : TopologyError) : Prop :=
  ∃ fs', (stage.before.outcome fs host state).value = (.ok (), fs') ∧
    (stage.learn.outcome fs' host (stage.before.outcome fs host state).host).value.1 = .error e

variable {stage : RefreshStage} {e : TopologyError}

/-- A refresh that fails in a stage leaves what the stages before have left. -/
theorem FailsIn.value_refresh (h : fs.FailsIn host state stage e) :
    ∃ fs', (stage.before.outcome fs host state).value = (.ok (), fs') ∧
      (refresh.outcome fs host state).value = (.error e, fs') := by
  obtain ⟨fs', hbefore, hlearn⟩ := h
  obtain ⟨behind, hrefresh⟩ := stage.exists_refresh_eq
  refine ⟨fs', hbefore, ?_⟩
  rcases hfirst : stage.before.outcome fs host state with ⟨result, requests, state'⟩
  rw [hfirst] at hbefore hlearn
  obtain rfl : result = (.ok (), fs') := hbefore
  -- The stage itself adds nothing to what it found.
  have hleft := stage.eq_of_learn_error hlearn
  rcases hsecond : stage.learn.outcome fs' host state' with ⟨⟨result, left⟩, requests', state''⟩
  rw [hsecond] at hlearn hleft
  obtain rfl : result = .error e := hlearn
  obtain rfl : left = fs' := hleft
  rw [hrefresh, Update.outcome_bind_ok hfirst, Update.outcome_bind_error hsecond]

/-- A refresh that fails does so in some stage. -/
theorem exists_failsIn (h : (refresh.outcome fs host state).value.1 = .error e) :
    ∃ stage, fs.FailsIn host state stage e := by
  -- The stage is the first that fails; the refresh ends there, with its error.
  rcases hmounts : refreshMounts.outcome fs host state with ⟨⟨result, fs'⟩, requests, state'⟩
  cases result with
  | error e' =>
    refine ⟨.mounts, fs, rfl, ?_⟩
    rw [refresh, Update.outcome_bind_error hmounts] at h
    exact (congrArg (fun went => went.value.1) hmounts).trans h
  | ok _ =>
    rw [refresh, Update.outcome_bind_ok hmounts] at h
    rcases hsubvolumes : refreshSubvolumes.outcome fs' host state' with
      ⟨⟨result, fs''⟩, requests', state''⟩
    cases result with
    | error e' =>
      refine ⟨.subvolumes, fs', congrArg Dialogue.Outcome.value hmounts, ?_⟩
      rw [Update.outcome_bind_error hsubvolumes] at h
      rw [RefreshStage.before, hmounts, RefreshStage.learn, hsubvolumes]
      exact h
    | ok _ =>
      rw [Update.outcome_bind_ok hsubvolumes] at h
      have hbefore : RefreshStage.default.before.outcome fs host state =
          ⟨(.ok (), fs''), requests ++ requests', state''⟩ := by
        rw [RefreshStage.before, Update.outcome_bind_ok hmounts, hsubvolumes]
      refine ⟨.default, fs'', by rw [hbefore], ?_⟩
      rw [hbefore]
      exact h

/-! ## The parts -/

/-- Those of the given mounts that are of the filesystem's devices, in their order. -/
def ownMounts (fs : Filesystem) (mountpoints : List Mountpoint) : List Mountpoint :=
  mountpoints.filter fun m => fs.hasDevice m.device

/-- The mounts of the filesystem, and those of its subvolumes, are the given ones. -/
structure IsMountedBy (fs : Filesystem) (mountpoints : List Mountpoint) : Prop where
  table : fs.mounts = .ofMountpoints mountpoints
  attached : ∀ s ∈ fs.subvolumes.toList,
    s.mountpoints = mountpoints.filter fun m => m.subvolumeId = s.id

/-- Two filesystems differ in their mounts and subvolumes at most. -/
structure SameSettings (fs fs' : Filesystem) : Prop where
  uuid : fs.uuid = fs'.uuid
  label : fs.label = fs'.label
  devices : fs.devices = fs'.devices
  defaultId : fs.defaultId = fs'.defaultId

theorem isMountedBy_updateMountpoints (h : fs.subvolumes.IsKeyed) (mountpoints : List Mountpoint) :
    (fs.updateMountpoints mountpoints).IsMountedBy (fs.ownMounts mountpoints) where
  table := rfl
  attached := fun s hs =>
    (h.isAttached_attach _ s hs).trans (MountTable.forSubvolume_ofMountpoints _ s.id)

theorem IsMountedBy.updateSubvolumes {mountpoints : List Mountpoint}
    (h : fs.IsMountedBy mountpoints) (subvolumes : List Subvolume) :
    (fs.updateSubvolumes subvolumes).IsMountedBy mountpoints where
  table := h.table
  attached := by
    intro s hs
    have hs := (SubvolumeTree.isKeyed_ofSubvolumes subvolumes).isAttached_attach _ s hs
    rw [hs, h.table]
    exact MountTable.forSubvolume_ofMountpoints _ s.id

@[simp] theorem listing_updateMountpoints (fs : Filesystem) (mountpoints : List Mountpoint) :
    (fs.updateMountpoints mountpoints).subvolumes.listing = fs.subvolumes.listing :=
  SubvolumeTree.listing_attach _ _

@[simp] theorem listing_updateSubvolumes (fs : Filesystem) (subvolumes : List Subvolume) :
    (fs.updateSubvolumes subvolumes).subvolumes.listing =
      (SubvolumeTree.ofSubvolumes subvolumes).listing :=
  SubvolumeTree.listing_attach _ _

theorem sameSettings_updateMountpoints (fs : Filesystem) (mountpoints : List Mountpoint) :
    (fs.updateMountpoints mountpoints).SameSettings fs :=
  ⟨rfl, rfl, rfl, rfl⟩

theorem SameSettings.updateSubvolumes (h : fs.SameSettings fs') (subvolumes : List Subvolume) :
    (fs.updateSubvolumes subvolumes).SameSettings fs' :=
  { h with }

/-! ## What each stage leaves -/

/-- A refresh that has learned the mounts. -/
theorem exists_of_value_refreshMounts
    (h : (refreshMounts.outcome fs host state).value = (.ok (), fs')) :
    ∃ mountpoints, Inspection.read .mounts (host (.inspect .mounts) state).1 = .ok mountpoints ∧
      fs' = fs.updateMountpoints mountpoints :=
  RefreshStage.mounts.exists_read_of_learn_ok rfl h

theorem outcome_refreshMounts_of_read {mountpoints : List Mountpoint}
    (h : Inspection.read .mounts (host (.inspect .mounts) state).1 = .ok mountpoints) :
    refreshMounts.outcome fs host state =
      ⟨(.ok (), fs.updateMountpoints mountpoints), [.inspect .mounts],
        (host (.inspect .mounts) state).2⟩ := by
  have hlearn : refreshMounts.outcome fs host state = _ :=
    RefreshStage.mounts.outcome_learn_of_some rfl
  rw [h] at hlearn
  exact hlearn

theorem FailsIn.value_refresh_mounts (h : fs.FailsIn host state .mounts e) :
    (refresh.outcome fs host state).value = (.error e, fs) := by
  obtain ⟨fs', hbefore, hrefresh⟩ := h.value_refresh
  obtain rfl : fs = fs' := (Prod.mk.inj hbefore).2
  exact hrefresh

theorem FailsIn.value_refresh_subvolumes (h : fs.FailsIn host state .subvolumes e) :
    ∃ mountpoints, Inspection.read .mounts (host (.inspect .mounts) state).1 = .ok mountpoints ∧
      (refresh.outcome fs host state).value = (.error e, fs.updateMountpoints mountpoints) := by
  obtain ⟨fs', hbefore, hrefresh⟩ := h.value_refresh
  obtain ⟨mountpoints, hread, rfl⟩ := exists_of_value_refreshMounts hbefore
  exact ⟨mountpoints, hread, hrefresh⟩

/-- Of a filesystem that is not mounted nothing is asked but the mounts. -/
theorem outcome_learn_of_unmounted (stage : RefreshStage) (h : fs.handle? = none)
    (hstage : stage ≠ .mounts) :
    stage.learn.outcome fs host state = ⟨(.ok (), fs), [], state⟩ := by
  refine stage.outcome_learn_of_none ?_
  cases stage with
  | mounts => contradiction
  | subvolumes | default => rw [RefreshStage.question?, h, Option.map_none]

/-- A refresh fails in the last stage only if there was a mount to ask through, and the subvolumes
were learned through it. -/
theorem FailsIn.value_refresh_default (h : fs.FailsIn host state .default e) :
    let first := host (.inspect .mounts) state
    ∃ mountpoints m subvolumes, Inspection.read .mounts first.1 = .ok mountpoints ∧
      (fs.ownMounts mountpoints).head? = some m ∧
      Inspection.read (.subvolumes m.path) (host (.inspect (.subvolumes m.path)) first.2).1 =
        .ok subvolumes ∧
      (refresh.outcome fs host state).value =
        (.error e, (fs.updateMountpoints mountpoints).updateSubvolumes subvolumes) := by
  intro first
  obtain ⟨left, hbefore, hrefresh⟩ := h.value_refresh
  obtain ⟨_, hbefore', hlearn⟩ := h
  obtain rfl := (Prod.mk.inj (hbefore.symm.trans hbefore')).2
  have hsplit : RefreshStage.default.before = (do refreshMounts; refreshSubvolumes) := rfl
  rcases hmounts : refreshMounts.outcome fs host state with ⟨⟨result, fs'⟩, requests, state'⟩
  cases result with
  | error e' =>
    rw [hsplit, Update.outcome_bind_error hmounts] at hbefore
    exact nomatch (Prod.mk.inj hbefore).1
  | ok _ =>
    rw [hsplit, Update.outcome_bind_ok hmounts] at hbefore
    obtain ⟨mountpoints, hread, rfl⟩ :=
      exists_of_value_refreshMounts (congrArg Dialogue.Outcome.value hmounts)
    rw [outcome_refreshMounts_of_read hread] at hmounts
    obtain rfl : first.2 = state' := congrArg Dialogue.Outcome.host hmounts
    have hhandle : (fs.updateMountpoints mountpoints).handle? =
        (fs.ownMounts mountpoints).head?.map Mountpoint.path := rfl
    cases hown : (fs.ownMounts mountpoints).head? with
    | none =>
      -- Without a mount the last stage asks nothing, hence cannot fail.
      rw [hown, Option.map_none] at hhandle
      have hskip : refreshSubvolumes.outcome (fs.updateMountpoints mountpoints) host first.2 = _ :=
        outcome_learn_of_unmounted .subvolumes hhandle nofun
      rw [hskip] at hbefore
      obtain rfl := (Prod.mk.inj hbefore).2
      rw [outcome_learn_of_unmounted .default hhandle nofun] at hlearn
      contradiction
    | some m =>
      have hquestion : RefreshStage.question? (fs.updateMountpoints mountpoints) .subvolumes =
          some (.subvolumes m.path) := by
        rw [RefreshStage.question?, hhandle, hown]
        rfl
      obtain ⟨subvolumes, hsubvolumes, rfl⟩ :=
        RefreshStage.subvolumes.exists_read_of_learn_ok hquestion hbefore
      exact ⟨mountpoints, m, subvolumes, hread, hown, hsubvolumes, hrefresh⟩

/-- A refresh that learns that the filesystem has no mount stops there. -/
theorem outcome_refresh_of_unmounted {mountpoints : List Mountpoint}
    (hread : Inspection.read .mounts (host (.inspect .mounts) state).1 = .ok mountpoints)
    (hown : fs.ownMounts mountpoints = []) :
    refresh.outcome fs host state =
      ⟨(.ok (), fs.updateMountpoints mountpoints), [.inspect .mounts],
        (host (.inspect .mounts) state).2⟩ := by
  have hhandle : (fs.updateMountpoints mountpoints).handle? =
      (fs.ownMounts mountpoints).head?.map Mountpoint.path := rfl
  rw [hown, List.head?_nil, Option.map_none] at hhandle
  have hsubvolumes (state : τ) :
      refreshSubvolumes.outcome (fs.updateMountpoints mountpoints) host state = _ :=
    outcome_learn_of_unmounted .subvolumes hhandle nofun
  have hdefault (state : τ) :
      refreshDefault.outcome (fs.updateMountpoints mountpoints) host state = _ :=
    outcome_learn_of_unmounted .default hhandle nofun
  rw [refresh, Update.outcome_bind_ok (outcome_refreshMounts_of_read hread),
    Update.outcome_bind_ok (hsubvolumes _), hdefault]
  rfl

/-- A stage that fails leaves the filesystem as it is. A refresh fails just if one of its stages
does. If that is the first one, it leaves all as it is. If it is the second, the mounts are those
that were read, with the subvolumes too, of which everything else is kept. If it is the third, the
subvolumes are those that were read, and the default is kept. A refresh that reads no mount of the
filesystem succeeds; there are no mounts then, and everything else is kept. None is read off a tool
that ends with 1 and prints nothing but blanks. -/
theorem refresh_leaves_stages_done (hfs : fs.Reachable) (host : Dialogue.Host τ) (state : τ) :
    let first := host (.inspect .mounts) state
    let left := (refresh.outcome fs host state).value.2
    (∀ (stage : RefreshStage) (state' : τ) (e : TopologyError),
      (stage.learn.outcome fs host state').value.1 = .error e →
      (stage.learn.outcome fs host state').value.2 = fs) ∧
    (∀ e, (refresh.outcome fs host state).value.1 = .error e ↔
      ∃ stage, fs.FailsIn host state stage e) ∧
    (∀ e, fs.FailsIn host state .mounts e → left = fs) ∧
    (∀ e, fs.FailsIn host state .subvolumes e →
      ∃ mountpoints, Inspection.read .mounts first.1 = .ok mountpoints ∧
        left.IsMountedBy (fs.ownMounts mountpoints) ∧
        left.subvolumes.listing = fs.subvolumes.listing ∧ left.SameSettings fs) ∧
    (∀ e, fs.FailsIn host state .default e →
      ∃ mountpoints m subvolumes, Inspection.read .mounts first.1 = .ok mountpoints ∧
        (fs.ownMounts mountpoints).head? = some m ∧
        Inspection.read (.subvolumes m.path) (host (.inspect (.subvolumes m.path)) first.2).1 =
          .ok subvolumes ∧
        left.IsMountedBy (fs.ownMounts mountpoints) ∧
        left.subvolumes.listing = (SubvolumeTree.ofSubvolumes subvolumes).listing ∧
        left.SameSettings fs) ∧
    (∀ mountpoints : List Mountpoint, Inspection.read .mounts first.1 = .ok mountpoints →
      (∀ m ∈ mountpoints, fs.hasDevice m.device = false) →
      (refresh.outcome fs host state).value.1 = .ok () ∧ left.IsMountedBy [] ∧
        left.subvolumes.listing = fs.subvolumes.listing ∧ left.SameSettings fs) ∧
    ∀ output : CommandOutput, first.1 = .ok output → output.status = 1 →
      Text.isBlankText output.stdout.toList → Text.isBlankText output.stderr.toList →
      Inspection.read .mounts first.1 = .ok [] := by
  intro first left
  have hkeyed := hfs.consistent.tree_keyed
  refine ⟨fun stage _ _ => stage.eq_of_learn_error, fun e => ⟨exists_failsIn, ?_⟩,
    ?_, ?_, ?_, ?_, ?_⟩
  · rintro ⟨stage, hstage⟩
    obtain ⟨fs', -, hrefresh⟩ := hstage.value_refresh
    rw [hrefresh]
  · intro e hfails
    exact congrArg Prod.snd hfails.value_refresh_mounts
  · intro e hfails
    obtain ⟨mountpoints, hread, hrefresh⟩ := hfails.value_refresh_subvolumes
    have hleft : left = fs.updateMountpoints mountpoints := congrArg Prod.snd hrefresh
    rw [hleft]
    exact ⟨mountpoints, hread, isMountedBy_updateMountpoints hkeyed mountpoints,
      fs.listing_updateMountpoints mountpoints, fs.sameSettings_updateMountpoints mountpoints⟩
  · intro e hfails
    obtain ⟨mountpoints, m, subvolumes, hread, hown, hsubvolumes, hrefresh⟩ :=
      hfails.value_refresh_default
    have hleft : left = (fs.updateMountpoints mountpoints).updateSubvolumes subvolumes :=
      congrArg Prod.snd hrefresh
    rw [hleft]
    exact ⟨mountpoints, m, subvolumes, hread, hown, hsubvolumes,
      (isMountedBy_updateMountpoints hkeyed mountpoints).updateSubvolumes subvolumes,
      listing_updateSubvolumes _ subvolumes,
      (fs.sameSettings_updateMountpoints mountpoints).updateSubvolumes subvolumes⟩
  · intro mountpoints hread hforeign
    have hown : fs.ownMounts mountpoints = [] :=
      List.filter_eq_nil_iff.2 fun m hm => by simp [hforeign m hm]
    have hrefresh := congrArg Dialogue.Outcome.value (outcome_refresh_of_unmounted hread hown)
    have hleft : left = fs.updateMountpoints mountpoints := congrArg Prod.snd hrefresh
    rw [hleft]
    exact ⟨congrArg Prod.fst hrefresh, hown ▸ isMountedBy_updateMountpoints hkeyed mountpoints,
      fs.listing_updateMountpoints mountpoints, fs.sameSettings_updateMountpoints mountpoints⟩
  · intro output houtput hstatus hstdout hstderr
    have hreports : output.reportsNoMounts = true := by
      simp [CommandOutput.reportsNoMounts, hstatus, hstdout, hstderr]
    rw [houtput]
    exact if_pos hreports

/-- A mounted filesystem whose default subvolume cannot be learned after a subvolume was renamed and
another one was added. -/
theorem refresh_leaves_stages_done_before_default :
    let line :=
      "TARGET=\"/srv\" SOURCE=\"/dev/sda\" FSTYPE=\"btrfs\" OPTIONS=\"subvolid=256,subvol=/new\""
    let listing := "ID\tgen\tparent\ttop level\tpath\n--\t---\t------\t---------\t----\n" ++
      "256\t9\t5\t5\t\t<FS_TREE>/new\n257\t9\t256\t256\t\t<FS_TREE>/new/in\n"
    let host : Dialogue.Host Unit
      | .inspect .filesystems, _ => (.error (.system .notFound), ())
      | .inspect .mounts, _ => (.ok ⟨"findmnt", 0, line, ""⟩, ())
      | .inspect (.subvolumes _), _ => (.ok ⟨"btrfs", 0, listing, ""⟩, ())
      | .inspect (.defaultSubvolume _), _ => (.ok ⟨"btrfs", 1, "", "ERROR: busy"⟩, ())
      | .mutate _, _ => (.ok (), ())
      | .resolveDevice device, _ => (device, ())
    let fs := ((Filesystem.new "1111" none [⟨"/dev/sda"⟩]).updateSubvolumes
      [.ofListed 256 "old" (some 5)]).updateMountpoints []
    let left := (refresh.outcome fs host ()).value.2
    (∃ e, fs.FailsIn host () .default e) ∧
      left.IsMountedBy [⟨⟨"/srv"⟩, ⟨"/dev/sda"⟩, 256, "/new"⟩] ∧
      left.subvolumes.listing =
        [.topLevel, .ofListed 256 "new" (some 5), .ofListed 257 "new/in" (some 256)] ∧
      left.SameSettings fs := by
  intro line listing host fs left
  have hfs : fs.Reachable := reachable_of_listing _ _ _ (by decide) _
  have hfails : fs.FailsIn host () .default (.commandFailed "btrfs" 1 "ERROR: busy") :=
    ⟨(RefreshStage.default.before.outcome fs host ()).value.2, by decide +kernel, by decide +kernel⟩
  obtain ⟨-, -, -, -, hdefault, -⟩ := refresh_leaves_stages_done hfs host ()
  obtain ⟨mountpoints, m, subvolumes, hmounts, hm, hsubvolumes, hmounted, hlisting, hsettings⟩ :=
    hdefault _ hfails
  have hread : Listing.readMounts line = .ok [⟨⟨"/srv"⟩, ⟨"/dev/sda"⟩, 256, "/new"⟩] := by
    decide +kernel
  obtain rfl := Except.ok.inj (hmounts.symm.trans hread)
  have hread' : Listing.readSubvolumes listing =
      .ok [.topLevel, .ofListed 256 "new" (some 5), .ofListed 257 "new/in" (some 256)] := by
    decide +kernel
  rw [Inspection.read_subvolumes_of_succeeded rfl] at hsubvolumes
  obtain rfl := Except.ok.inj (hsubvolumes.symm.trans hread')
  refine ⟨⟨_, hfails⟩, hmounted, hlisting.trans ?_, hsettings⟩
  decide +kernel

end Filesystem

end BtrfsTopology
