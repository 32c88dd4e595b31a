import BtrfsTopology.Proofs.LookupSpelling
import Mathlib.Data.List.Forall2
import Mathlib.Logic.Relation

/-!
# Looking up through the innermost mount

A path of the mounted file tree is looked up through the deepest mount above it, of several mounts
on the same place through the one that was listed last. Which mounts are above is a matter of
components: one whose path only begins the text of the path does not count, and neither do slashes
that are repeated or stand at the end.

## Main definitions

* `Filesystem.IsInnermostAbove` — a mount is the innermost one above a path
* `VfsPath.IsUndotted`, `VfsPath.stepsBelow` — a path without `.`, and its steps behind another path
* `VfsPath.BreaksOffIn` — a path ends inside a name of another
* `VfsPath.SameButSlashes` — paths differ in repeated slashes and slashes at the end at most

## Main results

* `Filesystem.innermost?_mountsAbove_eq_some_iff` — the search finds the innermost mount
* `VfsPath.segmentsBelow_of_isUndotted` — what is looked up behind the mount are the steps there
* `VfsPath.SameButSlashes.same` — such slashes make no components
* `SubvolumeTree.nearest_of_listing_eq` — mounts do not count in the search for the nearest
  subvolume
* `Filesystem.lookup?_through_innermost_mount` — what is found
-/

namespace BtrfsTopology

open InternalPath SubvolumeTree

/-! ## The innermost mount above a path -/

/-- A mount is the innermost one of those in front of it and behind it. -/
theorem Mountpoint.innermost?_append_cons {before after : List Mountpoint} {m : Mountpoint}
    (hbefore : ∀ b ∈ before, b.depth ≤ m.depth) (hafter : ∀ a ∈ after, a.depth < m.depth) :
    innermost? (before ++ m :: after) = some m := by
  -- The best so far gives way to a mount behind it unless that one lies less deep.
  induction after using List.reverseRecOn with
  | nil =>
    rw [innermost?_concat]
    cases hbest : innermost? before with
    | none => rfl
    | some best => exact if_pos (hbefore best (mem_of_innermost? hbest))
  | append_singleton after last ih =>
    have hinner := ih fun a ha => hafter a (List.mem_append_left _ ha)
    have hlast : last.depth < m.depth := hafter last (by simp)
    rw [← List.cons_append, ← List.append_assoc, innermost?_concat, hinner]
    exact if_neg (Nat.not_le_of_lt hlast)

namespace Filesystem

variable {fs : Filesystem} {path : VfsPath} {m : Mountpoint}

/-- A mount of the table is above a path by components. Of the others that are, none in front of it
in the table lies deeper, and those behind it lie less deep. -/
def IsInnermostAbove (fs : Filesystem) (path : VfsPath) (m : Mountpoint) : Prop :=
  ∃ before after, fs.mounts.mountpoints = before ++ m :: after ∧
    m.path.components <+: path.components ∧
    (∀ b ∈ before, b.path.components <+: path.components → b.depth ≤ m.depth) ∧
    ∀ a ∈ after, a.path.components <+: path.components → a.depth < m.depth

theorem startsWith_iff {base : VfsPath} :
    path.startsWith base = true ↔ base.components <+: path.components :=
  List.isPrefixOf_iff_prefix

theorem innermost?_mountsAbove_eq_some_iff :
    Mountpoint.innermost? (fs.mountsAbove path) = some m ↔ fs.IsInnermostAbove path m := by
  constructor
  · intro h
    obtain ⟨front, m', back, hsplit, hm', hfront, hback⟩ :=
      Mountpoint.exists_innermost? (List.ne_nil_of_mem (Mountpoint.mem_of_innermost? h))
    obtain rfl := Option.some.inj (h.symm.trans hm')
    -- The table is split in the same place as the mounts above the path.
    obtain ⟨outer, rest, hmounts, rfl, hrest⟩ := List.filter_eq_append_iff.1 hsplit
    obtain ⟨inner, after, rfl, hinner, hm, rfl⟩ := List.filter_eq_cons_iff.1 hrest
    refine ⟨outer ++ inner, after, by rw [hmounts, List.append_assoc], startsWith_iff.1 hm, ?_, ?_⟩
    · intro b hb habove
      rcases List.mem_append.1 hb with hb | hb
      · exact hfront b (List.mem_filter.2 ⟨hb, startsWith_iff.2 habove⟩)
      · exact absurd (startsWith_iff.2 habove) (hinner b hb)
    · exact fun a ha habove => hback a (List.mem_filter.2 ⟨ha, startsWith_iff.2 habove⟩)
  · rintro ⟨before, after, hmounts, hm, hbefore, hafter⟩
    have hfilter : fs.mountsAbove path = before.filter (fun b => path.startsWith b.path) ++
        m :: after.filter fun a => path.startsWith a.path := by
      simp [mountsAbove, hmounts, startsWith_iff.2 hm]
    rw [hfilter]
    refine Mountpoint.innermost?_append_cons (fun b hb => ?_) fun a ha => ?_
    · obtain ⟨hb, habove⟩ := List.mem_filter.1 hb
      exact hbefore b hb (startsWith_iff.1 habove)
    · obtain ⟨ha, habove⟩ := List.mem_filter.1 ha
      exact hafter a ha (startsWith_iff.1 habove)

/-- There is an innermost mount just when there is one at all. -/
theorem exists_isInnermostAbove_iff :
    (∃ m, fs.IsInnermostAbove path m) ↔
      ∃ m ∈ fs.mounts.mountpoints, m.path.components <+: path.components := by
  constructor
  · rintro ⟨m, before, after, hmounts, hm, -⟩
    exact ⟨m, hmounts ▸ List.mem_append_right _ List.mem_cons_self, hm⟩
  · rintro ⟨m, hmem, hm⟩
    have habove : m ∈ fs.mountsAbove path := mem_mountsAbove.2 ⟨hmem, startsWith_iff.2 hm⟩
    obtain ⟨-, inner, -, -, hinner, -⟩ :=
      Mountpoint.exists_innermost? (List.ne_nil_of_mem habove)
    exact ⟨inner, innermost?_mountsAbove_eq_some_iff.1 hinner⟩

end Filesystem

namespace VfsPath

variable {path other base : VfsPath}

/-! ## Steps behind a mount -/

/-- No part of a path is a `.`. -/
def IsUndotted (path : VfsPath) : Prop :=
  ['.'] ∉ path.text.toList.splitOn '/'

instance : DecidablePred IsUndotted := fun path =>
  inferInstanceAs (Decidable (['.'] ∉ path.text.toList.splitOn '/'))

/-- The texts of the components behind `base`, but for the root. -/
def stepsBelow (path base : VfsPath) : List Segment :=
  ((path.components.drop base.components.length).filter (· ≠ .root)).map Component.text

/-- The parts of a path are those of its text. -/
theorem map_fst_parts (path : VfsPath) :
    path.parts.map Prod.fst = path.text.toList.splitOn '/' := by
  have hinner (part : List Char) : (innerPart part).1 = part := rfl
  have hleading (absolute : Bool) (part : List Char) : (leadingPart absolute part).1 = part := by
    cases absolute
    · rw [leadingPart, if_neg (by decide)]
      split <;> rfl
    · rfl
  rw [parts]
  cases path.text.toList.splitOn '/' with
  | nil => rfl
  | cons first rest => simp [hleading, hinner, Function.comp_def]

theorem not_hasDotBelow_of_isUndotted (h : path.IsUndotted) : ¬ path.HasDotBelow base := by
  intro hdot
  apply h
  rw [← map_fst_parts]
  exact List.mem_map_of_mem
    (((trimParts_sublist _).trans (dropComponents_sublist _ _)).subset hdot)

/-- A name has a text. -/
theorem name_nil_not_mem_components (path : VfsPath) : .name [] ∉ path.components := by
  have hinner (part : List Char) : (innerPart part).2 ≠ some (.name []) := by
    rw [innerPart]
    split_ifs <;> simp_all
  have hleading (absolute : Bool) (part : List Char) :
      (leadingPart absolute part).2 ≠ some (.name []) := by
    rw [leadingPart]
    split_ifs
    · simp
    · simp
    · exact hinner part
  intro h
  obtain ⟨part, hpart, hname⟩ := List.mem_filterMap.1 h
  rw [parts] at hpart
  cases hsplit : path.text.toList.splitOn '/' with
  | nil => simp [hsplit] at hpart
  | cons first rest =>
    rw [hsplit] at hpart
    rcases List.mem_cons.1 hpart with rfl | hpart
    · exact hleading _ _ hname
    · obtain ⟨text, -, rfl⟩ := List.mem_map.1 hpart
      exact hinner text hname

/-- What is looked up behind another path are the steps there. -/
theorem segmentsBelow_of_isUndotted (h : path.IsUndotted) :
    path.segmentsBelow base = path.stepsBelow base := by
  rw [segmentsBelow_eq (not_hasDotBelow_of_isUndotted h), List.filter_map, stepsBelow]
  refine congrArg _ (List.filter_congr fun component hcomponent => ?_)
  have hmem : component ∈ path.components := List.mem_of_mem_drop hcomponent
  cases component with
  | root | current | up => rfl
  | name text =>
    have hne : text ≠ [] := by
      rintro rfl
      exact path.name_nil_not_mem_components hmem
    simpa [Component.text] using hne

/-! ## Paths that break off in a name -/

/-- A path ends inside a name of another: its last component is a name that begins a longer one
there. -/
def BreaksOffIn (base path : VfsPath) : Prop :=
  ∃ front name tail below, base.components = front ++ [.name name] ∧
    path.components = front ++ .name (name ++ tail) :: below ∧ tail ≠ []

theorem BreaksOffIn.not_prefix (h : base.BreaksOffIn path) :
    ¬ base.components <+: path.components := by
  obtain ⟨front, name, tail, below, hbase, hpath, htail⟩ := h
  rw [hbase, hpath, List.prefix_append_right_inj, List.cons_prefix_cons]
  simpa using htail

/-! ## Slashes that do not count -/

/-- One slash more, next to another or at the end. -/
inductive AddsSlash : VfsPath → VfsPath → Prop where
  | repeated (front back : String) :
      AddsSlash ⟨front ++ "/" ++ back⟩ ⟨front ++ "/" ++ ("/" ++ back)⟩
  | trailing {text : String} (h : text ≠ "") : AddsSlash ⟨text⟩ ⟨text ++ "/"⟩

/-- Two paths differ in repeated slashes and slashes at the end at most. -/
def SameButSlashes : VfsPath → VfsPath → Prop :=
  Relation.EqvGen AddsSlash

/-- A slash that is added makes an empty part. -/
theorem AddsSlash.exists_parts (h : AddsSlash path other) :
    ∃ front back, path.parts = front ++ back ∧ other.parts = front ++ ([], none) :: back := by
  cases h with
  | repeated front back =>
    obtain ⟨parts, -, hbehind⟩ := exists_parts_slash front
    have hsplit : ("/" ++ back).toList.splitOn '/' = [] :: back.toList.splitOn '/' := by
      have htext : ("/" ++ back).toList = '/' :: back.toList := by simp
      rw [htext, Text.splitOn_cons_self]
    refine ⟨parts, _, hbehind back, ?_⟩
    rw [hbehind, hsplit]
    rfl
  | @trailing text hne =>
    obtain ⟨parts, hparts, hbehind⟩ := exists_parts_slash text
    refine ⟨parts, [], ?_, ?_⟩
    · rw [List.append_nil]
      exact hparts fun hnil => hne (String.toList_inj.1 hnil)
    · rw [← String.append_empty (s := text ++ "/"), hbehind]
      rfl

/-- An empty part is no component and no `.`. -/
theorem AddsSlash.same (h : AddsSlash path other) :
    path.components = other.components ∧ (path.IsUndotted ↔ other.IsUndotted) := by
  obtain ⟨front, back, hpath, hother⟩ := h.exists_parts
  refine ⟨by simp [components, hpath, hother], ?_⟩
  rw [IsUndotted, IsUndotted, ← map_fst_parts, ← map_fst_parts, hpath, hother]
  simp

theorem SameButSlashes.same (h : path.SameButSlashes other) :
    path.components = other.components ∧ (path.IsUndotted ↔ other.IsUndotted) := by
  induction h with
  | rel _ _ h => exact h.same
  | refl => exact ⟨rfl, Iff.rfl⟩
  | symm _ _ _ ih => exact ⟨ih.1.symm, ih.2.symm⟩
  | trans _ _ _ _ _ ih ih' => exact ⟨ih.1.trans ih'.1, ih.2.trans ih'.2⟩

end VfsPath

/-- Two mounts differ in such slashes of their paths at most. -/
structure Mountpoint.SameButSlashes (m m' : Mountpoint) : Prop where
  path : m.path.SameButSlashes m'.path
  device : m.device = m'.device
  subvolumeId : m.subvolumeId = m'.subvolumeId
  subvolumePath : m.subvolumePath = m'.subvolumePath

theorem Mountpoint.SameButSlashes.depth_eq {m m' : Mountpoint} (h : m.SameButSlashes m') :
    m.depth = m'.depth :=
  congrArg List.length h.path.same.1

/-- Of mounts that differ in such slashes at most the innermost ones do, too. -/
theorem Mountpoint.innermost?_rel {mountpoints mountpoints' : List Mountpoint}
    (h : List.Forall₂ SameButSlashes mountpoints mountpoints') :
    Option.Rel SameButSlashes (innermost? mountpoints) (innermost? mountpoints') := by
  -- The search compares depths only, and these are equal.
  refine List.rel_foldl (fun best best' hbest m m' hm => ?_) .none h
  cases hbest with
  | none => exact .some hm
  | @some b b' hb =>
    simp only [hb.depth_eq, hm.depth_eq]
    split
    · exact .some hm
    · exact .some hb

/-! ## Trees without mounts -/

namespace SubvolumeTree

variable {tree tree' : SubvolumeTree}

theorem map_findPath? (tree : SubvolumeTree) (path : String) :
    (tree.findPath? path).map (fun s => s.withMountpoints []) =
      tree.listing.find? fun s => s.path = path := by
  rw [listing, List.find?_map]
  rfl

/-- In trees that differ in mounts at most, the nearest subvolumes do. -/
theorem nearest_of_listing_eq (h : tree.listing = tree'.listing) (path : String) :
    (tree.nearest path).withMountpoints [] = (tree'.nearest path).withMountpoints [] := by
  have hfind (path : String) : (tree.findPath? path).map (fun s => s.withMountpoints []) =
      (tree'.findPath? path).map fun s => s.withMountpoints [] := by
    rw [map_findPath?, map_findPath?, h]
  have hroot : tree.root.withMountpoints [] = tree'.root.withMountpoints [] := (List.cons.inj h).1
  rw [nearest, nearest]
  -- Either search ends at the same path, as each finds something there or neither does.
  induction withAncestors path with
  | nil => exact hroot
  | cons above rest ih =>
    have habove := hfind above
    rw [List.findSome?_cons, List.findSome?_cons]
    cases hs : tree.findPath? above with
    | none =>
      rw [hs, Option.map_none] at habove
      rw [Option.map_eq_none_iff.1 habove.symm]
      exact ih
    | some s =>
      rw [hs, Option.map_some] at habove
      obtain ⟨s', hs', heq⟩ := Option.map_eq_some_iff.1 habove.symm
      rw [hs']
      exact heq.symm

end SubvolumeTree

namespace Filesystem

variable {fs fs' : Filesystem} {path path' : VfsPath} {m : Mountpoint}

/-! ## What is found -/

theorem lookup?_eq_none_iff : fs.lookup? path = none ↔
    ∀ m ∈ fs.mounts.mountpoints, ¬ m.path.components <+: path.components := by
  rw [← Option.not_isSome_iff_eq_none, isSome_lookup?, Option.isSome_iff_exists]
  simp only [innermost?_mountsAbove_eq_some_iff, exists_isInnermostAbove_iff, not_exists, not_and]

/-- A path without `.` is looked up at its steps below the innermost mount. -/
theorem lookup?_of_isInnermostAbove (hdots : path.IsUndotted) (h : fs.IsInnermostAbove path m) :
    fs.lookup? path = some (fs.subvolumes.nearest
      (ofSegments (segments (normalize m.subvolumePath) ++ path.stepsBelow m.path))) := by
  obtain ⟨target, htarget, hlookup⟩ :=
    lookup?_eq_nearest (innermost?_mountsAbove_eq_some_iff.2 h)
  rw [hlookup, segments_normalize, ← VfsPath.segmentsBelow_of_isUndotted hdots, ← htarget]
  exact congrArg some (nearest_congr (segments_normalize target).symm)

/-- What is found depends on the mounts above the path and on the subvolumes. -/
theorem lookup?_congr (hmounts : fs.mountsAbove path = fs'.mountsAbove path)
    (hsubvolumes : fs.subvolumes = fs'.subvolumes) : fs.lookup? path = fs'.lookup? path := by
  rw [lookup?, lookup?, hmounts, hsubvolumes]

/-- A mount that is not above the path does not count. -/
theorem lookup?_without {before after : List Mountpoint}
    (hmounts : fs.mounts.mountpoints = before ++ m :: after)
    (hm : ¬ m.path.components <+: path.components) :
    { fs with mounts := .ofMountpoints (before ++ after) }.lookup? path = fs.lookup? path := by
  refine lookup?_congr ?_ rfl
  have hstarts : path.startsWith m.path = false := by
    rw [← Bool.not_eq_true, startsWith_iff]
    exact hm
  simp [mountsAbove, MountTable.ofMountpoints, hmounts, hstarts]

/-- Slashes of the path do not count. -/
theorem lookup?_eq_of_sameButSlashes (hdots : path.IsUndotted) (h : path.SameButSlashes path') :
    fs.lookup? path' = fs.lookup? path := by
  obtain ⟨hcomponents, hdots'⟩ := h.same
  have habove : fs.mountsAbove path = fs.mountsAbove path' := mountsAbove_congr hcomponents
  cases hinner : Mountpoint.innermost? (fs.mountsAbove path) with
  | none => rw [lookup?_eq_none hinner, lookup?_eq_none (habove ▸ hinner)]
  | some m =>
    have hsteps : path.stepsBelow m.path = path'.stepsBelow m.path := by
      rw [VfsPath.stepsBelow, VfsPath.stepsBelow, hcomponents]
    rw [lookup?_of_isInnermostAbove hdots (innermost?_mountsAbove_eq_some_iff.1 hinner),
      lookup?_of_isInnermostAbove (hdots'.1 hdots)
        (innermost?_mountsAbove_eq_some_iff.1 (habove ▸ hinner)), hsteps]

/-- Slashes of the path and of the mounts do not count, but for the mounts of what is found. -/
theorem lookup?_of_sameButSlashes (hdots : path.IsUndotted)
    (hlisting : fs'.subvolumes.listing = fs.subvolumes.listing)
    (hmounts : List.Forall₂ Mountpoint.SameButSlashes fs.mounts.mountpoints fs'.mounts.mountpoints)
    (hpath : path.SameButSlashes path') :
    (fs'.lookup? path').map (fun s => s.withMountpoints []) =
      (fs.lookup? path).map fun s => s.withMountpoints [] := by
  obtain ⟨hcomponents, hdots'⟩ := hpath.same
  have habove : List.Forall₂ Mountpoint.SameButSlashes (fs.mountsAbove path)
      (fs'.mountsAbove path') :=
    List.rel_filter (fun m m' hm => by
      simp only [VfsPath.startsWith, hm.path.same.1, hcomponents]) hmounts
  have hinner := Mountpoint.innermost?_rel habove
  cases h : Mountpoint.innermost? (fs.mountsAbove path) with
  | none =>
    cases h' : Mountpoint.innermost? (fs'.mountsAbove path') with
    | none => rw [lookup?_eq_none h, lookup?_eq_none h']
    | some m' =>
      rw [h, h'] at hinner
      cases hinner
  | some m =>
    cases h' : Mountpoint.innermost? (fs'.mountsAbove path') with
    | none =>
      rw [h, h'] at hinner
      cases hinner
    | some m' =>
      rw [h, h'] at hinner
      obtain ⟨hm⟩ := hinner
      have hsteps : path.stepsBelow m.path = path'.stepsBelow m'.path := by
        rw [VfsPath.stepsBelow, VfsPath.stepsBelow, hcomponents, hm.path.same.1]
      rw [lookup?_of_isInnermostAbove hdots (innermost?_mountsAbove_eq_some_iff.1 h),
        lookup?_of_isInnermostAbove (hdots'.1 hdots) (innermost?_mountsAbove_eq_some_iff.1 h'),
        hm.subvolumePath, hsteps]
      exact congrArg some (nearest_of_listing_eq hlisting _)

/-- A path without `.` lies in no subvolume just when no mount is above it by components. Otherwise
there is an innermost mount above it: the deepest one, the last in the table of those that lie as
deep. The path lies in the subvolume nearest to the path of that mount's subvolume, continued by the
components of the path behind the mount. Mounts whose path breaks off in a name of the path do not
count, and neither do slashes of the path or of the mounts that are repeated or stand at the end. -/
theorem lookup?_through_innermost_mount (fs : Filesystem) {path : VfsPath}
    (hdots : path.IsUndotted) :
    (fs.lookup? path = none ↔
      ∀ m ∈ fs.mounts.mountpoints, ¬ m.path.components <+: path.components) ∧
    ((∃ m ∈ fs.mounts.mountpoints, m.path.components <+: path.components) →
      ∃ m, fs.IsInnermostAbove path m) ∧
    (∀ m, fs.IsInnermostAbove path m →
      fs.lookup? path = some (fs.subvolumes.nearest
        (ofSegments (segments (normalize m.subvolumePath) ++ path.stepsBelow m.path)))) ∧
    (∀ before m after, fs.mounts.mountpoints = before ++ m :: after → m.path.BreaksOffIn path →
      ¬ m.path.components <+: path.components ∧
        { fs with mounts := .ofMountpoints (before ++ after) }.lookup? path = fs.lookup? path) ∧
    (∀ path', path.SameButSlashes path' → fs.lookup? path' = fs.lookup? path) ∧
    ∀ (fs' : Filesystem) (path' : VfsPath), fs'.subvolumes.listing = fs.subvolumes.listing →
      List.Forall₂ Mountpoint.SameButSlashes fs.mounts.mountpoints fs'.mounts.mountpoints →
      path.SameButSlashes path' →
      (fs'.lookup? path').map (fun s => s.withMountpoints []) =
        (fs.lookup? path).map fun s => s.withMountpoints [] := by
  refine ⟨lookup?_eq_none_iff, exists_isInnermostAbove_iff.2,
    fun m => lookup?_of_isInnermostAbove hdots, fun before m after hmounts hbreaks => ?_,
    fun path' hpath => ?_, fun fs' path' => lookup?_of_sameButSlashes hdots⟩
  · exact ⟨hbreaks.not_prefix, lookup?_without hmounts hbreaks.not_prefix⟩
  · exact lookup?_eq_of_sameButSlashes hdots hpath

/-- A path below two mounts on the same place, written with different slashes, which are in another
mount and beside one whose name theirs goes on. -/
theorem lookup?_through_innermost_mount_stacked :
    let listing : List Subvolume :=
      [.ofListed 257 "/data" (some 5), .ofListed 258 "/data/in" (some 257),
        .ofListed 259 "/base" (some 5), .ofListed 260 "/base/in" (some 259)]
    let beside : Mountpoint := ⟨⟨"/srv/da"⟩, ⟨"/dev/sda"⟩, 258, "/data/in"⟩
    let m : Mountpoint := ⟨⟨"/srv//data"⟩, ⟨"/dev/sda"⟩, 259, "/base"⟩
    let outer : List Mountpoint :=
      [⟨⟨"/srv/data/"⟩, ⟨"/dev/sda"⟩, 257, "/data"⟩, ⟨⟨"/srv"⟩, ⟨"/dev/sda"⟩, 5, "/"⟩]
    let fs := ((Filesystem.new "1111" none [⟨"/dev/sda"⟩]).updateSubvolumes listing).updateMountpoints
      (beside :: outer ++ [m])
    let path : VfsPath := ⟨"/srv/data/in"⟩
    path.IsUndotted ∧ fs.IsInnermostAbove path m ∧
      fs.lookup? path = some ⟨260, "/base/in", some 259, []⟩ ∧
      fs.lookup? ⟨"/srv/data//in/"⟩ = fs.lookup? path ∧
      beside.path.BreaksOffIn path ∧ ¬ beside.path.components <+: path.components := by
  intro listing beside m outer fs path
  have hdots : path.IsUndotted := by decide
  have hinner : fs.IsInnermostAbove path m :=
    ⟨beside :: outer, [], by decide, by decide, by decide, by decide⟩
  have hrepeated : path.AddsSlash ⟨"/srv/data//in"⟩ := by
    simpa using VfsPath.AddsSlash.repeated "/srv/data" "in"
  have htrailing : VfsPath.AddsSlash ⟨"/srv/data//in"⟩ ⟨"/srv/data//in/"⟩ := by
    simpa using VfsPath.AddsSlash.trailing (by decide : "/srv/data//in" ≠ "")
  have hslashes : path.SameButSlashes ⟨"/srv/data//in/"⟩ :=
    .trans _ _ _ (.rel _ _ hrepeated) (.rel _ _ htrailing)
  have hbreaks : beside.path.BreaksOffIn path :=
    ⟨[.root, .name "srv".toList], "da".toList, "ta".toList, [.name "in".toList],
      by decide, by decide, by decide⟩
  obtain ⟨-, -, hfound, hbeside, hsame, -⟩ := lookup?_through_innermost_mount fs hdots
  refine ⟨hdots, hinner, (hfound m hinner).trans ?_, hsame _ hslashes, hbreaks, ?_⟩
  · decide
  · exact (hbeside [] beside (outer ++ [m]) (by decide) hbreaks).1

end Filesystem

end BtrfsTopology
