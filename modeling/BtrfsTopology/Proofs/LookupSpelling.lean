import BtrfsTopology.Proofs.LookupInverse

/-!
# Spellings of a looked up path

A path of the mounted file tree can be written in many ways that have the same components. The mount
that a path lies behind is found by components, but what is looked up below the mount are the parts
of the text behind it. Empty parts count neither there nor here. A `.` is no component, but is a
segment like any other of an internal path. Those at either end of what is behind the mount are
trimmed; one that stands in between is looked up as if a subvolume could have that name.

## Main definitions

* `VfsPath.partsBelow` — the parts of a path that are looked up behind another
* `VfsPath.HasDotBelow` — a `.` that is no component is among them

## Main results

* `VfsPath.filterMap_partsBelow` — these parts have the components behind the other path
* `VfsPath.segmentsBelow_eq` — what is looked up are components, unless there is a `.` among them
* `Filesystem.lookup?_eq_nearest` — which internal path is looked up
-/

namespace BtrfsTopology

open InternalPath SubvolumeTree

namespace VfsPath

/-- The text of a component between slashes. -/
def Component.text : Component → List Char
  | .root => []
  | .current => ['.']
  | .up => ['.', '.']
  | .name text => text

/-- What of a path is looked up behind `base`. -/
def partsBelow (path base : VfsPath) : List Part :=
  trimParts (dropComponents base.components.length path.parts)

/-- The segments that are looked up behind `base`. -/
def segmentsBelow (path base : VfsPath) : List Segment :=
  ((path.partsBelow base).map Prod.fst).filter fun text => !text.isEmpty

/-- A `.` that is no component stands between components behind `base`. -/
def HasDotBelow (path base : VfsPath) : Prop :=
  (['.'], none) ∈ path.partsBelow base

instance (path base : VfsPath) : Decidable (path.HasDotBelow base) :=
  inferInstanceAs (Decidable ((['.'], none) ∈ path.partsBelow base))

/-- How a part can be written: a component by its text, and nothing or a `.` for none. -/
def IsWritten : Part → Prop
  | (text, some component) => '/' ∉ text ∧ text = component.text
  | (text, none) => text = [] ∨ text = ['.']

variable {path base : VfsPath} {parts : List Part} {part : Part}

/-! ## Parts of a path -/

theorem IsWritten.not_mem (h : IsWritten part) : '/' ∉ part.1 := by
  obtain ⟨text, _ | component⟩ := part
  · rcases h with rfl | rfl <;> decide
  · exact h.1

theorem isWritten_innerPart {text : List Char} (h : '/' ∉ text) : IsWritten (innerPart text) := by
  rw [innerPart]
  split
  · next hnone => exact hnone
  · split
    · next hup => exact ⟨h, hup⟩
    · exact ⟨h, rfl⟩

theorem isWritten_leadingPart {absolute : Bool} {text : List Char} (h : '/' ∉ text)
    (habsolute : absolute = true → text = []) : IsWritten (leadingPart absolute text) := by
  rw [leadingPart]
  split
  · next hslash => exact ⟨h, habsolute hslash⟩
  · split
    · next hdot => exact ⟨h, hdot⟩
    · exact isWritten_innerPart h

theorem isWritten_of_mem_parts (h : part ∈ path.parts) : IsWritten part := by
  have hslash : ∀ text ∈ path.text.toList.splitOn '/', '/' ∉ text := fun _ htext =>
    Text.not_mem_of_mem_splitOn htext
  rw [parts] at h
  cases hsplit : path.text.toList.splitOn '/' with
  | nil => simp [hsplit] at h
  | cons first rest =>
    simp only [hsplit] at h hslash
    rcases List.mem_cons.1 h with rfl | h
    · refine isWritten_leadingPart (hslash first List.mem_cons_self) fun habsolute => ?_
      obtain ⟨behind, hbehind⟩ := exists_splitOn_of_isAbsolute habsolute
      exact (List.cons.inj (hsplit.symm.trans hbehind)).1
    · obtain ⟨text, htext, rfl⟩ := List.mem_map.1 h
      exact isWritten_innerPart (hslash text (List.mem_cons_of_mem first htext))

/-! ## Parts behind another path -/

theorem dropComponents_sublist (n : Nat) (parts : List Part) :
    (dropComponents n parts).Sublist parts := by
  fun_induction dropComponents n parts <;> simp_all

theorem filterMap_dropComponents (n : Nat) (parts : List Part) :
    (dropComponents n parts).filterMap Prod.snd = (parts.filterMap Prod.snd).drop n := by
  fun_induction dropComponents n parts <;> simp_all

theorem filterMap_dropWhile (parts : List Part) :
    (parts.dropWhile (·.2.isNone)).filterMap Prod.snd = parts.filterMap Prod.snd := by
  induction parts with
  | nil => rfl
  | cons part parts ih =>
    obtain ⟨text, _ | component⟩ := part <;> simp [ih]

theorem filterMap_trimParts (parts : List Part) :
    (trimParts parts).filterMap Prod.snd = parts.filterMap Prod.snd := by
  rw [trimParts, List.filterMap_reverse, filterMap_dropWhile, List.filterMap_reverse,
    List.reverse_reverse, filterMap_dropWhile]

theorem trimParts_sublist (parts : List Part) : (trimParts parts).Sublist parts := by
  have hfront : (parts.dropWhile (·.2.isNone)).Sublist parts := List.dropWhile_sublist _
  have hend := (List.dropWhile_sublist (·.2.isNone)).trans hfront.reverse
  simpa [trimParts] using hend.reverse

/-- The parts behind another path have the components behind it. -/
theorem filterMap_partsBelow (path base : VfsPath) :
    (path.partsBelow base).filterMap Prod.snd = path.components.drop base.components.length := by
  rw [partsBelow, filterMap_trimParts, filterMap_dropComponents]
  rfl

theorem isWritten_of_mem_partsBelow (h : part ∈ path.partsBelow base) : IsWritten part :=
  isWritten_of_mem_parts
    (((trimParts_sublist _).trans (dropComponents_sublist _ _)).subset h)

/-- Texts of parts are those of their components, but for the `.` that are none. -/
theorem filter_texts_eq (h : ∀ part ∈ parts, IsWritten part) (hdot : (['.'], none) ∉ parts) :
    (parts.map Prod.fst).filter (fun text => !text.isEmpty) =
      ((parts.filterMap Prod.snd).map Component.text).filter fun text => !text.isEmpty := by
  induction parts with
  | nil => rfl
  | cons part parts ih =>
    obtain ⟨hne, hdots⟩ : (['.'], none) ≠ part ∧ (['.'], none) ∉ parts := by simpa using hdot
    have hrest := ih (fun other hother => h other (List.mem_cons_of_mem part hother)) hdots
    have hpart := h part List.mem_cons_self
    obtain ⟨text, _ | component⟩ := part
    · -- What stands for no component is empty here, as there is no `.`.
      obtain rfl : text = [] := hpart.resolve_right fun htext => hne (by rw [htext])
      simpa using hrest
    · obtain ⟨-, rfl⟩ := hpart
      simp [List.filter_cons, hrest]

/-- What is looked up behind a path are the components that are there, unless a `.` is among
them. -/
theorem segmentsBelow_eq (h : ¬ path.HasDotBelow base) :
    path.segmentsBelow base =
      ((path.components.drop base.components.length).map Component.text).filter
        fun text => !text.isEmpty := by
  rw [segmentsBelow, filter_texts_eq (fun _ => isWritten_of_mem_partsBelow) h,
    filterMap_partsBelow]

/-- The text behind a path that lies above has these segments. -/
theorem below?_of_startsWith (h : path.startsWith base = true) :
    ∃ rest, path.below? base = some rest ∧ innerSegments rest = path.segmentsBelow base := by
  refine ⟨_, if_pos h, ?_⟩
  rw [innerSegments_intercalate, segmentsBelow, partsBelow]
  intro text htext
  obtain ⟨part, hpart, rfl⟩ := List.mem_map.1 htext
  have hwritten : IsWritten part := isWritten_of_mem_partsBelow hpart
  exact hwritten.not_mem

end VfsPath

namespace Filesystem

variable {fs : Filesystem} {m : Mountpoint} {path other : VfsPath}

/-- Which mounts are above a path depends on its components alone. -/
theorem mountsAbove_congr (h : path.components = other.components) :
    fs.mountsAbove path = fs.mountsAbove other := by
  simp only [mountsAbove, VfsPath.startsWith, h]

/-- What is looked up are the segments of the mounted subvolume's path and those behind the mount. -/
theorem lookup?_eq_nearest (h : Mountpoint.innermost? (fs.mountsAbove path) = some m) :
    ∃ target, segments target = segments m.subvolumePath ++ path.segmentsBelow m.path ∧
      fs.lookup? path = some (fs.subvolumes.nearest target) := by
  obtain ⟨-, hstarts⟩ := mem_mountsAbove.1 (Mountpoint.mem_of_innermost? h)
  obtain ⟨rest, hbelow, hrest⟩ := VfsPath.below?_of_startsWith hstarts
  refine ⟨m.subvolumePath ++ "/" ++ rest, by rw [segments_append_slash, hrest], ?_⟩
  simp [lookup?, h, hbelow]

theorem lookup?_eq_none (h : Mountpoint.innermost? (fs.mountsAbove path) = none) :
    fs.lookup? path = none := by
  simp [lookup?, h]

theorem isSome_lookup? (fs : Filesystem) (path : VfsPath) :
    (fs.lookup? path).isSome = (Mountpoint.innermost? (fs.mountsAbove path)).isSome := by
  cases h : Mountpoint.innermost? (fs.mountsAbove path) with
  | none => rw [lookup?_eq_none h, Option.isSome_none, Option.isSome_none]
  | some m =>
    obtain ⟨target, -, hlookup⟩ := lookup?_eq_nearest h
    rw [hlookup, Option.isSome_some, Option.isSome_some]

/-- Paths with the same components lie behind the same mount, or both behind none, and a subvolume is
found for both of them or for neither. It is the same subvolume, unless one of the two has a `.` that
is no component between components behind the mount. -/
theorem lookup?_unless_dotted (fs : Filesystem) (path other : VfsPath) (h : path.sameAs other) :
    Mountpoint.innermost? (fs.mountsAbove path) = Mountpoint.innermost? (fs.mountsAbove other) ∧
    (fs.lookup? path).isSome = (fs.lookup? other).isSome ∧
    ((∀ m, Mountpoint.innermost? (fs.mountsAbove path) = some m →
      ¬ path.HasDotBelow m.path ∧ ¬ other.HasDotBelow m.path) →
      fs.lookup? path = fs.lookup? other) := by
  have hcomponents : path.components = other.components := by simpa [VfsPath.sameAs] using h
  have habove : fs.mountsAbove path = fs.mountsAbove other := mountsAbove_congr hcomponents
  refine ⟨by rw [habove], by rw [isSome_lookup?, isSome_lookup?, habove], fun hdots => ?_⟩
  cases hinner : Mountpoint.innermost? (fs.mountsAbove path) with
  | none => rw [lookup?_eq_none hinner, lookup?_eq_none (habove ▸ hinner)]
  | some m =>
    obtain ⟨hdot, hdot'⟩ := hdots m hinner
    obtain ⟨target, htarget, hlookup⟩ := lookup?_eq_nearest hinner
    obtain ⟨target', htarget', hlookup'⟩ := lookup?_eq_nearest (habove ▸ hinner)
    -- Behind one mount, what is looked up for the two can differ by their parts there alone.
    have hsegments : segments target = segments target' := by
      rw [htarget, htarget', VfsPath.segmentsBelow_eq hdot, VfsPath.segmentsBelow_eq hdot',
        hcomponents]
    rw [hlookup, hlookup', nearest_congr hsegments]

/-- A subvolume below a mount, found by its plain path and by one with repeated slashes and with `.`
in front of the mount's end and at the path's end. -/
theorem lookup?_unless_dotted_outside :
    let listing : List Subvolume := [.ofListed 257 "/a" (some 5), .ofListed 258 "/a/b" (some 257)]
    let fs := ((Filesystem.new "1111" none [⟨"/dev/sda"⟩]).updateSubvolumes listing).updateMountpoints
      [⟨⟨"/mnt/"⟩, ⟨"/dev/sda"⟩, 5, "/"⟩]
    VfsPath.sameAs ⟨"/./mnt//a///b/./"⟩ ⟨"/mnt/a/b"⟩ = true ∧
      fs.lookup? ⟨"/./mnt//a///b/./"⟩ = fs.lookup? ⟨"/mnt/a/b"⟩ ∧
      fs.lookup? ⟨"/mnt/a/b"⟩ = some ⟨258, "/a/b", some 257, []⟩ := by
  intro listing fs
  have hsame : VfsPath.sameAs ⟨"/./mnt//a///b/./"⟩ ⟨"/mnt/a/b"⟩ = true := by decide
  refine ⟨hsame, (lookup?_unless_dotted fs _ _ hsame).2.2 fun m hm => ?_, by decide⟩
  obtain rfl : ⟨⟨"/mnt/"⟩, ⟨"/dev/sda"⟩, 5, "/"⟩ = m := Option.some.inj (Eq.trans (by decide) hm)
  decide

/-- With a `.` between the components behind a mount, another subvolume is found than without. -/
theorem not_lookup?_of_dotted :
    let listing : List Subvolume := [.ofListed 257 "/a" (some 5), .ofListed 258 "/a/b" (some 257)]
    let fs := ((Filesystem.new "1111" none [⟨"/dev/sda"⟩]).updateSubvolumes listing).updateMountpoints
      [⟨⟨"/mnt"⟩, ⟨"/dev/sda"⟩, 5, "/"⟩]
    fs.Reachable ∧ VfsPath.sameAs ⟨"/mnt/a/./b"⟩ ⟨"/mnt/a/b"⟩ = true ∧
      fs.lookup? ⟨"/mnt/a/./b"⟩ = some ⟨257, "/a", some 5, []⟩ ∧
      fs.lookup? ⟨"/mnt/a/b"⟩ = some ⟨258, "/a/b", some 257, []⟩ := by
  intro listing fs
  exact ⟨reachable_of_listing _ _ _ (by decide) _, by decide, by decide, by decide⟩

end Filesystem

end BtrfsTopology
