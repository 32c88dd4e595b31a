import BtrfsTopology.Filesystem.Change
import BtrfsTopology.Proofs.Consistency
import BtrfsTopology.Proofs.Inspection
import BtrfsTopology.Proofs.Nearest

/-!
# Changes are made as a whole or not at all

A change whose paths cannot be resolved asks the host nothing. One whose paths can be resolved begins
with its one mutation; if that fails it ends there and has learned nothing, and if it succeeds what
is left is just a refresh, which decides how the change ends.

## Main definitions

* `Filesystem.Resolves` — the mutation that the paths of a change stand for
* `TopologyError.IsUnresolved` — an error of resolution

## Main results

* `Filesystem.resolves_or_plan_error` — a change is planned, or there is an error of resolution
* `Filesystem.outcome_carryOut_of_plan_error`, `Filesystem.outcome_carryOut_of_refused`,
  `Filesystem.outcome_carryOut_of_done` — the three ways in which a change can go
-/

namespace BtrfsTopology

open InternalPath

/-- The error says that a path or an identifier stands for nothing that can be reached. -/
inductive TopologyError.IsUnresolved : TopologyError → Prop where
  | subvolumeNotFound (key : SubvolumeKey) : IsUnresolved (.subvolumeNotFound key)
  | unresolvablePath (path : String) : IsUnresolved (.unresolvablePath path)
  | pathMismatch (parent child : String) : IsUnresolved (.pathMismatch parent child)

theorem SubvolumeTree.isUnresolved_of_childPath {tree : SubvolumeTree} {path : String}
    {e : TopologyError} (h : tree.childPath path = .error e) : e.IsUnresolved := by
  rw [childPath] at h
  split at h
  · obtain rfl := Except.error.inj h
    exact .unresolvablePath _
  · rw [Subvolume.relativeChild, relativeChild] at h
    split at h
    · contradiction
    · obtain rfl := Except.error.inj h
      exact .pathMismatch _ _

/-- Nothing is above the root through which it could be reached. -/
theorem SubvolumeTree.IsKeyed.childPath_root {tree : SubvolumeTree} (h : tree.IsKeyed)
    {path : String} (hpath : normalize path = "/") :
    tree.childPath path = .error (.unresolvablePath "/") := by
  have hsegments : segments path = [] := by rw [← segments_normalize, hpath, segments_root]
  have hnearest : tree.nearest path = tree.root := by
    have hfind : tree.findPath? (ofSegments []) = some tree.root := h.findPath?_root
    simp [nearest, withAncestors, hsegments, ancestorsOfReversed, hfind]
  have hcontainer : tree.container? path = none := by
    rw [container?, hnearest, h.root_path, hpath, if_pos rfl, parent?,
      h.get?_id tree.root_mem_toList, Option.bind_some, h.root_parent, Option.bind_none]
  simp only [childPath, hcontainer, hpath, Option.bind_none]

namespace Filesystem

/-- A mutation that makes a change, in paths of the mounted file tree. -/
inductive Resolves (fs : Filesystem) : Change → Mutation → Prop where
  /-- A new subvolume is reached through one above it. -/
  | create {path : String} {target : VfsPath} (htarget : fs.subvolumes.childPath path = .ok target) :
      Resolves fs (.create path) (.create target)
  /-- A subvolume that is there is removed through one above it. -/
  | delete {path : String} {s : Subvolume} {target : VfsPath}
      (hs : fs.subvolumes.atPath? path = some s)
      (htarget : fs.subvolumes.childPath path = .ok target) :
      Resolves fs (.delete path) (.delete target)
  /-- A subvolume that is there is copied from where it is mounted itself, if it is. -/
  | snapshot {source destination : String} {s : Subvolume} {copied target : VfsPath}
      (hs : fs.subvolumes.atPath? source = some s)
      (hcopied : fs.subvolumes.mountedPath? s.id = some copied)
      (htarget : fs.subvolumes.childPath destination = .ok target) :
      Resolves fs (.snapshot source destination) (.snapshot copied target)
  /-- A subvolume is known by its identifier, and any mount will do. -/
  | setDefaultId {id : Nat} {s : Subvolume} {mount : VfsPath}
      (hs : fs.subvolumes.get? id = some s) (hmount : fs.handle? = some mount) :
      Resolves fs (.setDefaultId id) (.setDefault mount id)
  /-- A path stands for the identifier of the subvolume that is there. -/
  | setDefault {path : String} {s : Subvolume} {mutation : Mutation}
      (hs : fs.subvolumes.atPath? path = some s) (h : Resolves fs (.setDefaultId s.id) mutation) :
      Resolves fs (.setDefault path) mutation

variable {fs : Filesystem} {change : Change} {mutation : Mutation} {e : TopologyError}

/-! ## Planning -/

section Planning

variable {path source : String} {s : Subvolume} {id : Nat}

theorem require_eq_ok (hs : fs.subvolumes.atPath? path = some s) : fs.require path = .ok s := by
  rw [require, hs]

theorem require_eq_error (hs : fs.subvolumes.atPath? path = none) :
    fs.require path = .error (.subvolumeNotFound (.byPath (normalize path))) := by
  rw [require, hs]

theorem planSource_eq_ok {copied : VfsPath} (hs : fs.subvolumes.atPath? source = some s)
    (hcopied : fs.subvolumes.mountedPath? s.id = some copied) :
    fs.planSource source = .ok copied := by
  simp only [planSource, require_eq_ok hs, bind, Except.bind, hcopied]
  rfl

theorem planSource_eq_error (hs : fs.subvolumes.atPath? source = some s)
    (hcopied : fs.subvolumes.mountedPath? s.id = none) :
    fs.planSource source = .error (.unresolvablePath (normalize source)) := by
  simp only [planSource, require_eq_ok hs, bind, Except.bind, hcopied]
  rfl

/-- The plan of a change is the mutation that makes it. -/
theorem Resolves.plan_eq (h : fs.Resolves change mutation) : fs.plan change = .ok mutation := by
  induction h with
  | create htarget =>
    rw [plan, htarget]
    rfl
  | delete hs htarget =>
    rw [plan, require_eq_ok hs, htarget]
    rfl
  | snapshot hs hcopied htarget =>
    rw [plan, planSource_eq_ok hs hcopied, htarget]
    rfl
  | setDefaultId hs hmount => simp only [plan, planDefault, hs, hmount]
  | setDefault hs _ ih =>
    rw [plan, require_eq_ok hs]
    exact ih

theorem resolves_or_planDefault_error (fs : Filesystem) (id : Nat) :
    (∃ mutation, fs.Resolves (.setDefaultId id) mutation) ∨
      ∃ e, e.IsUnresolved ∧ fs.planDefault id = .error e := by
  rw [planDefault]
  split
  · exact .inr ⟨_, .subvolumeNotFound (.byId id), rfl⟩
  · exact .inr ⟨_, .unresolvablePath _, rfl⟩
  · next hs hmount => exact .inl ⟨_, .setDefaultId hs hmount⟩

/-- A change has a mutation that makes it, or its plan is an error of resolution. -/
theorem resolves_or_plan_error (fs : Filesystem) (change : Change) :
    (∃ mutation, fs.Resolves change mutation) ∨
      ∃ e, e.IsUnresolved ∧ fs.plan change = .error e := by
  cases change with
  | create path =>
    cases htarget : fs.subvolumes.childPath path with
    | ok target => exact .inl ⟨_, .create htarget⟩
    | error e =>
      exact .inr ⟨e, SubvolumeTree.isUnresolved_of_childPath htarget, by rw [plan, htarget]; rfl⟩
  | delete path =>
    cases hs : fs.subvolumes.atPath? path with
    | none => exact .inr ⟨_, .subvolumeNotFound _, by rw [plan, require_eq_error hs]; rfl⟩
    | some s =>
      cases htarget : fs.subvolumes.childPath path with
      | ok target => exact .inl ⟨_, .delete hs htarget⟩
      | error e =>
        refine .inr ⟨e, SubvolumeTree.isUnresolved_of_childPath htarget, ?_⟩
        rw [plan, require_eq_ok hs, htarget]
        rfl
  | snapshot source destination =>
    cases hs : fs.subvolumes.atPath? source with
    | none =>
      exact .inr ⟨_, .subvolumeNotFound _, by rw [plan, planSource, require_eq_error hs]; rfl⟩
    | some s =>
      cases hcopied : fs.subvolumes.mountedPath? s.id with
      | none =>
        exact .inr ⟨_, .unresolvablePath _, by rw [plan, planSource_eq_error hs hcopied]; rfl⟩
      | some copied =>
        cases htarget : fs.subvolumes.childPath destination with
        | ok target => exact .inl ⟨_, .snapshot hs hcopied htarget⟩
        | error e =>
          refine .inr ⟨e, SubvolumeTree.isUnresolved_of_childPath htarget, ?_⟩
          rw [plan, planSource_eq_ok hs hcopied, htarget]
          rfl
  | setDefault path =>
    cases hs : fs.subvolumes.atPath? path with
    | none => exact .inr ⟨_, .subvolumeNotFound _, by rw [plan, require_eq_error hs]; rfl⟩
    | some s =>
      rcases resolves_or_planDefault_error fs s.id with ⟨mutation, h⟩ | ⟨e, he, hplan⟩
      · exact .inl ⟨mutation, .setDefault hs h⟩
      · refine .inr ⟨e, he, ?_⟩
        rw [plan, require_eq_ok hs]
        exact hplan
  | setDefaultId id => exact resolves_or_planDefault_error fs id

end Planning

/-! ## Carrying out -/

section CarryOut

variable {τ : Type} {host : Dialogue.Host τ} {state state' : τ}

/-- A change that cannot be planned asks nothing. -/
theorem outcome_carryOut_of_plan_error (h : fs.plan change = .error e) :
    (carryOut change).outcome fs host state = ⟨(.error e, fs), [], state⟩ := by
  rw [carryOut, Update.outcome_bind_ok Update.outcome_get, h]
  exact Update.outcome_bind_error (Update.outcome_ofQuery _)

/-- A change that can be planned is its mutation and then a refresh. -/
theorem outcome_carryOut_of_plan (h : fs.plan change = .ok mutation) :
    (carryOut change).outcome fs host state =
      Update.outcome (do Update.ofQuery (Query.mutate mutation); refresh; return mutation)
        fs host state := by
  rw [carryOut, Update.outcome_bind_ok Update.outcome_get, h]
  have hplan : (Update.ofQuery (Query.ofExcept (.ok mutation))).outcome fs host state =
      ⟨(.ok mutation, fs), [], state⟩ := Update.outcome_ofQuery _
  exact Update.outcome_bind_ok hplan

/-- A change whose mutation fails ends with it. -/
theorem outcome_carryOut_of_refused (h : fs.plan change = .ok mutation)
    (hhost : host (.mutate mutation) state = (.error e, state')) :
    (carryOut change).outcome fs host state = ⟨(.error e, fs), [.mutate mutation], state'⟩ := by
  have hmutate : (Update.ofQuery (Query.mutate mutation)).outcome fs host state =
      ⟨(.error e, fs), [.mutate mutation], state'⟩ := by
    rw [Update.outcome_ofQuery, Query.outcome_mutate, hhost]
  rw [outcome_carryOut_of_plan h]
  exact Update.outcome_bind_error hmutate

/-- A change whose mutation succeeds goes on as a refresh does. -/
theorem outcome_carryOut_of_done (h : fs.plan change = .ok mutation)
    (hhost : host (.mutate mutation) state = (.ok (), state')) :
    (carryOut change).outcome fs host state =
      let refreshed := refresh.outcome fs host state'
      ⟨(refreshed.value.1.map fun _ => mutation, refreshed.value.2),
        .mutate mutation :: refreshed.requests, refreshed.host⟩ := by
  have hmutate : (Update.ofQuery (Query.mutate mutation)).outcome fs host state =
      ⟨(.ok (), fs), [.mutate mutation], state'⟩ := by
    rw [Update.outcome_ofQuery, Query.outcome_mutate, hhost]
  rw [outcome_carryOut_of_plan h, Update.outcome_bind_ok hmutate]
  -- How the refresh ends is how the change ends.
  rcases hrefresh : refresh.outcome fs host state' with ⟨⟨result, fs'⟩, requests, state''⟩
  cases result with
  | error e =>
    rw [Update.outcome_bind_error hrefresh]
    rfl
  | ok value =>
    rw [Update.outcome_bind_ok hrefresh, Update.outcome_pure]
    simp [Except.map]

end CarryOut

/-! ## Changes as a whole -/

/-- A change that stands for no mutation fails with an error of resolution, asks the host nothing and
leaves the filesystem as it is. Otherwise the host is asked first for the mutation, which is the
result, and then only inspected. If the mutation fails, its error is that of the change, and nothing
has changed; if it succeeds, the filesystem and the way the change ends are those of a refresh that
begins with the host as it is then. Creating and deleting the root asks nothing. -/
theorem outcome_carryOut (fs : Filesystem) (change : Change) {τ : Type} (host : Dialogue.Host τ)
    (state : τ) :
    ((∀ mutation, ¬ fs.Resolves change mutation) →
      ∃ e : TopologyError, e.IsUnresolved ∧
        (carryOut change).outcome fs host state = ⟨(.error e, fs), [], state⟩) ∧
    (∀ mutation, fs.Resolves change mutation →
      (∀ e state', host (.mutate mutation) state = (.error e, state') →
        (carryOut change).outcome fs host state = ⟨(.error e, fs), [.mutate mutation], state'⟩) ∧
      ∀ state', host (.mutate mutation) state = (.ok (), state') →
        let refreshed := refresh.outcome fs host state'
        (carryOut change).outcome fs host state =
          ⟨(refreshed.value.1.map fun _ => mutation, refreshed.value.2),
            .mutate mutation :: refreshed.requests, refreshed.host⟩ ∧
        ∀ r ∈ refreshed.requests, r.IsInspection) ∧
    (fs.Reachable → ∀ path, normalize path = "/" → change = .create path ∨ change = .delete path →
      ((carryOut change).outcome fs host state).requests = []) := by
  refine ⟨fun hnone => ?_, fun mutation h => ⟨?_, ?_⟩, ?_⟩
  · rcases fs.resolves_or_plan_error change with ⟨mutation, h⟩ | ⟨e, he, hplan⟩
    · exact absurd h (hnone mutation)
    · exact ⟨e, he, outcome_carryOut_of_plan_error hplan⟩
  · intro e state' hhost
    exact outcome_carryOut_of_refused h.plan_eq hhost
  · intro state' hhost
    exact ⟨outcome_carryOut_of_done h.plan_eq hhost, asks_refresh τ host state' fs⟩
  · intro hfs path hpath hchange
    -- Neither change has a mutation, since both go through the path of the root.
    have hroot : ∀ target, fs.subvolumes.childPath path ≠ .ok target := by
      intro target htarget
      rw [hfs.consistent.tree_keyed.childPath_root hpath] at htarget
      contradiction
    obtain ⟨e, hplan⟩ : ∃ e, fs.plan change = .error e := by
      rcases fs.resolves_or_plan_error change with ⟨mutation, h⟩ | ⟨e, -, hplan⟩
      · rcases hchange with rfl | rfl
        · cases h with
          | create htarget => exact absurd htarget (hroot _)
        · cases h with
          | delete _ htarget => exact absurd htarget (hroot _)
      · exact ⟨e, hplan⟩
    rw [outcome_carryOut_of_plan_error hplan]

/-- Creating a subvolume on a host that has unmounted the filesystem in the meantime, and deleting
the root of the same filesystem. -/
theorem outcome_carryOut_unmounted :
    let fs := (Filesystem.new "1111" none [⟨"/dev/sda"⟩]).updateMountpoints
      [⟨⟨"/mnt"⟩, ⟨"/dev/sda"⟩, 5, "/"⟩]
    let host : Dialogue.Host Nat
      | .inspect _, count => (.ok ⟨"findmnt", 1, "", ""⟩, count)
      | .mutate _, count => (.ok (), count + 1)
      | .resolveDevice device, count => (device, count)
    let created := (carryOut (.create "x")).outcome fs host 0
    fs.Reachable ∧ fs.Resolves (.create "x") (.create ⟨"/mnt/x"⟩) ∧
      host (.mutate (.create ⟨"/mnt/x"⟩)) 0 = (.ok (), 1) ∧
      created.value.2 = (refresh.outcome fs host 1).value.2 ∧
      created.requests = [.mutate (.create ⟨"/mnt/x"⟩), .inspect .mounts] ∧
      (∀ mutation, ¬ fs.Resolves (.setDefaultId 256) mutation) ∧
      ((carryOut (.setDefaultId 256)).outcome fs host 0).value.2 = fs ∧
      ((carryOut (.delete "//")).outcome fs host 0).requests = [] := by
  intro fs host created
  have hfs : fs.Reachable :=
    ⟨_, .new _ _ _, .single (step_updateMountpoints _ _)⟩
  have hcreate : fs.Resolves (.create "x") (.create ⟨"/mnt/x"⟩) := .create (by decide)
  have hunknown : ∀ mutation, ¬ fs.Resolves (.setDefaultId 256) mutation := by
    intro mutation h
    cases h with
    | setDefaultId hs _ =>
      have hnone : fs.subvolumes.get? 256 = none := by decide
      exact Option.some_ne_none _ (hs.symm.trans hnone)
  obtain ⟨-, hresolved, -⟩ := outcome_carryOut fs (.create "x") host 0
  obtain ⟨hcreated, -⟩ := (hresolved _ hcreate).2 1 rfl
  obtain ⟨hunresolved, -⟩ := outcome_carryOut fs (.setDefaultId 256) host 0
  obtain ⟨e, -, hunchanged⟩ := hunresolved hunknown
  obtain ⟨-, -, hroot⟩ := outcome_carryOut fs (.delete "//") host 0
  refine ⟨hfs, hcreate, rfl, ?_, ?_, hunknown, ?_, hroot hfs "//" rfl (.inr rfl)⟩
  · exact congrArg (fun went => went.value.2) hcreated
  · exact congrArg Dialogue.Outcome.requests hcreated
  · rw [hunchanged]

end Filesystem

end BtrfsTopology
