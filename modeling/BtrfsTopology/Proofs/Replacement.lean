import BtrfsTopology.Filesystem.Basic
import BtrfsTopology.Proofs.SubvolumeTree

/-!
# Replacing parts in any order

The mounts, the subvolumes and the label of a filesystem are each replaced as a whole. The mounts
are written into the subvolumes as well, whichever of the two is replaced; all the same,
replacements of different kinds can be exchanged, and of those of one kind only the last counts. So
what a run of replacements comes to is told by the last one of each kind.

## Main definitions

* `Replacement` — a part of a filesystem, given anew
* `Filesystem.replaceAll` — a run of replacements
* `Replacement.last?` — the last one of a kind in a run
* `Filesystem.replaceParts` — one replacement of each kind at most

## Main results

* `Filesystem.updateMountpoints_updateSubvolumes` — mounts and subvolumes can be replaced in either
  order
* `Filesystem.replaceAll_eq_replaceParts` — a run comes to its last replacement of each kind
-/

namespace BtrfsTopology

/-- A part of a filesystem, given anew. -/
inductive Replacement where
  | mountpoints (mountpoints : List Mountpoint)
  | subvolumes (subvolumes : List Subvolume)
  | label (label : Option String)

namespace Replacement

/-- The filesystem with the part replaced. -/
def apply (fs : Filesystem) : Replacement → Filesystem
  | .mountpoints new => fs.updateMountpoints new
  | .subvolumes new => fs.updateSubvolumes new
  | .label new => fs.setLabel new

/-- The mounts, if these are replaced. -/
def mountpoints? : Replacement → Option (List Mountpoint)
  | .mountpoints new => some new
  | _ => none

/-- The subvolumes, if these are replaced. -/
def subvolumes? : Replacement → Option (List Subvolume)
  | .subvolumes new => some new
  | _ => none

/-- The label, if this is replaced. -/
def label? : Replacement → Option (Option String)
  | .label new => some new
  | _ => none

/-- The part of one kind that a run of replacements gives last. -/
def last? {α : Type} (kind : Replacement → Option α) (run : List Replacement) : Option α :=
  (run.filterMap kind).getLast?

/-- One further replacement is the last of its kind. -/
theorem last?_concat {α : Type} (kind : Replacement → Option α) (run : List Replacement)
    (r : Replacement) : last? kind (run ++ [r]) = (kind r).or (last? kind run) := by
  rw [last?, last?, List.filterMap_append, List.getLast?_append]
  cases hr : kind r <;> simp [hr]

end Replacement

namespace Filesystem

open Replacement

/-- The filesystem after a run of replacements. -/
def replaceAll (fs : Filesystem) (run : List Replacement) : Filesystem :=
  run.foldl Replacement.apply fs

/-- The filesystem with the given parts replaced: the label first, the mounts last. -/
def replaceParts (fs : Filesystem) (mountpoints : Option (List Mountpoint))
    (subvolumes : Option (List Subvolume)) (label : Option (Option String)) : Filesystem :=
  let fs := label.elim fs fs.setLabel
  let fs := subvolumes.elim fs fs.updateSubvolumes
  mountpoints.elim fs fs.updateMountpoints

variable (fs : Filesystem)

/-! ## Two replacements -/

/-- Of the mounts that were replaced nothing is left, with the subvolumes neither. -/
theorem updateMountpoints_updateMountpoints (mountpoints mountpoints' : List Mountpoint) :
    (fs.updateMountpoints mountpoints).updateMountpoints mountpoints' =
      fs.updateMountpoints mountpoints' := by
  simp [updateMountpoints, hasDevice]

theorem updateSubvolumes_updateSubvolumes (subvolumes subvolumes' : List Subvolume) :
    (fs.updateSubvolumes subvolumes).updateSubvolumes subvolumes' =
      fs.updateSubvolumes subvolumes' :=
  rfl

/-- New subvolumes get the same mounts whether these are replaced before or after them. -/
theorem updateMountpoints_updateSubvolumes (mountpoints : List Mountpoint)
    (subvolumes : List Subvolume) :
    (fs.updateMountpoints mountpoints).updateSubvolumes subvolumes =
      (fs.updateSubvolumes subvolumes).updateMountpoints mountpoints := by
  simp [updateMountpoints, updateSubvolumes, hasDevice]

/-! ## Runs -/

variable {mountpoints : Option (List Mountpoint)} {subvolumes : Option (List Subvolume)}
  {label : Option (Option String)}

/-- After one replacement of each kind, a further one takes the place of that of its kind. -/
theorem apply_replaceParts (r : Replacement) :
    r.apply (fs.replaceParts mountpoints subvolumes label) =
      fs.replaceParts (r.mountpoints?.or mountpoints) (r.subvolumes?.or subvolumes)
        (r.label?.or label) := by
  cases r with
  | mountpoints new =>
    cases mountpoints with
    | none => rfl
    | some old => exact updateMountpoints_updateMountpoints _ old new
  | subvolumes new =>
    -- The mounts were replaced after the subvolumes and have to be passed.
    cases mountpoints with
    | none => cases subvolumes <;> rfl
    | some mounted =>
      cases subvolumes with
      | none => exact updateMountpoints_updateSubvolumes _ mounted new
      | some old =>
        exact (updateMountpoints_updateSubvolumes _ mounted new).trans
          (congrArg (updateMountpoints · mounted) (updateSubvolumes_updateSubvolumes _ old new))
  | label new =>
    -- Nothing else is read from the label or written to it.
    cases mountpoints <;> cases subvolumes <;> cases label <;> rfl

/-- A run comes to its last replacement of each kind. -/
theorem replaceAll_eq_replaceParts (run : List Replacement) :
    fs.replaceAll run =
      fs.replaceParts (last? mountpoints? run) (last? subvolumes? run) (last? label? run) := by
  induction run using List.reverseRecOn with
  | nil => rfl
  | append_singleton run r ih =>
    rw [replaceAll] at ih
    rw [replaceAll, List.foldl_append, ih, List.foldl_cons, List.foldl_nil, apply_replaceParts]
    simp only [last?_concat]

/-- Runs of replacements with the same last one of each kind, or with none of it, make the same of a
filesystem, however long they are and however the kinds are interleaved. -/
theorem replaceAll_congr {run run' : List Replacement}
    (hmountpoints : last? mountpoints? run = last? mountpoints? run')
    (hsubvolumes : last? subvolumes? run = last? subvolumes? run')
    (hlabel : last? label? run = last? label? run') : fs.replaceAll run = fs.replaceAll run' := by
  rw [replaceAll_eq_replaceParts, hmountpoints, hsubvolumes, hlabel, ← replaceAll_eq_replaceParts]

/-- Mounts before subvolumes, and the other way round after mounts and subvolumes of which nothing
is to be left. -/
theorem replaceAll_congr_interleaved :
    let fs := Filesystem.new "1111" (some "old") [⟨"/dev/sda"⟩]
    let mountpoints : List Mountpoint :=
      [⟨⟨"/srv"⟩, ⟨"/dev/sdb"⟩, 256, "/"⟩, ⟨⟨"/home"⟩, ⟨"/dev/sda"⟩, 257, "/@home"⟩]
    let subvolumes : List Subvolume := [.ofListed 257 "@home" (some 5)]
    let stale : List Mountpoint := [⟨⟨"/mnt"⟩, ⟨"/dev/sda"⟩, 5, "/"⟩]
    let run : List Replacement := [.mountpoints mountpoints, .label none, .subvolumes subvolumes]
    let run' : List Replacement :=
      [.mountpoints stale, .label (some "new"), .subvolumes [.ofListed 258 "@old" (some 5)],
        .subvolumes subvolumes, .mountpoints mountpoints, .label none]
    fs.replaceAll run = fs.replaceAll run' ∧ (fs.replaceAll run).label = none ∧
      (fs.replaceAll run').subvolumes.toList =
        [.topLevel, ⟨257, "/@home", some 5, mountpoints.tail⟩] := by
  intro fs mountpoints subvolumes stale run run'
  have hcongr : fs.replaceAll run = fs.replaceAll run' :=
    replaceAll_congr fs (by decide) (by decide) (by decide)
  exact ⟨hcongr, rfl, by decide⟩

end Filesystem

end BtrfsTopology
