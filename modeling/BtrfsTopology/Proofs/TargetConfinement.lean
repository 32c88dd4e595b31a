import BtrfsTopology.Proofs.ResolvedTarget
import BtrfsTopology.Proofs.VfsPath

/-!
# Targets and the mounts they are reached through

A path of the filesystem is free text, and `..` is a segment like any other there. In the mounted
file tree it is not: appended to a mount, it leads to the directory above. So where what is appended
goes up more often than down, the target lies outside the mount, unless it goes down the same way
again.

To see where a target lies, its path is tidied: every `..` takes away the name before it, and at the
root there is nothing to take away.

## Main definitions

* `VfsPath.tidied` — the components of a path without `.` and `..`
* `InternalPath.climbs`, `InternalPath.namesLeft` — how often segments go up from where they begin,
  and the names they lead to from there

## Main results

* `VfsPath.components_join_of_text` — appending any segments to a path
* `VfsPath.tidied_join` — where appended segments lead
* `Filesystem.childPath_confined_unless_climbs` — when a target lies at or below its mount
-/

namespace BtrfsTopology

open InternalPath

/-! ## Segments that go up -/

namespace InternalPath

/-- Where segments lead: so often up, and then down by names, of which the last is in front. -/
structure Course where
  climbed : Nat
  names : List Segment

/-- Goes on by one segment. Going up takes the last name away, if there is one. -/
def Course.follow (course : Course) (segment : Segment) : Course :=
  if segment = ['.'] then course
  else if segment = ['.', '.'] then
    match course.names with
    | [] => { course with climbed := course.climbed + 1 }
    | _ :: names => { course with names := names }
  else { course with names := segment :: course.names }

/-- Where segments lead. -/
def course (segs : List Segment) : Course :=
  segs.foldl Course.follow ⟨0, []⟩

/-- How often segments go up from where they begin. -/
def climbs (segs : List Segment) : Nat :=
  (course segs).climbed

/-- The names by which segments go down from there. -/
def namesLeft (segs : List Segment) : List Segment :=
  (course segs).names.reverse

/-- Segments that never go up do not climb. -/
theorem climbs_eq_zero {segs : List Segment} (h : ['.', '.'] ∉ segs) : climbs segs = 0 := by
  suffices hfold : ∀ start : Course, (segs.foldl Course.follow start).climbed = start.climbed from
    hfold ⟨0, []⟩
  induction segs with
  | nil => exact fun start => rfl
  | cons segment segs ih =>
    obtain ⟨hsegment, hsegs⟩ : ['.', '.'] ≠ segment ∧ ['.', '.'] ∉ segs := by simpa using h
    intro start
    rw [List.foldl_cons, ih hsegs, Course.follow]
    split
    · rfl
    · rw [if_neg hsegment.symm]

end InternalPath

namespace VfsPath

/-! ## Tidied paths -/

/-- Takes a component to those in front of it, the last in front. -/
def tidyStep (above : List Component) : Component → List Component
  | .current => above
  | .up =>
    match above with
    | .name _ :: above => above
    | .root :: above => .root :: above
    | above => .up :: above
  | component => component :: above

/-- The components of a path without `.`, where every `..` has taken away the one before it. -/
def tidied (path : VfsPath) : List Component :=
  (path.components.foldl tidyStep []).reverse

variable {base path : VfsPath} {segs names : List Segment}

/-- An absolute path has the root in front, and names and ways up behind it. -/
theorem exists_components_of_isAbsolute (h : path.isAbsolute = true) :
    ∃ rest, path.components = .root :: rest ∧
      ∀ component ∈ rest, component = .up ∨ ∃ name, component = .name name := by
  obtain ⟨behind, hsplit⟩ := exists_splitOn_of_isAbsolute h
  refine ⟨((behind.splitOn '/').map innerPart).filterMap Prod.snd, ?_, ?_⟩
  · rw [components, parts, hsplit, h]
    rfl
  · intro component hcomponent
    obtain ⟨part, hpart, heq⟩ := List.mem_filterMap.1 hcomponent
    obtain ⟨text, -, rfl⟩ := List.mem_map.1 hpart
    rw [innerPart] at heq
    split_ifs at heq
    · exact .inl (Option.some.inj heq).symm
    · exact .inr ⟨text, (Option.some.inj heq).symm⟩

theorem exists_eq_map_name {components : List Component}
    (h : ∀ component ∈ components, ∃ name, component = .name name) :
    ∃ names : List Segment, components = names.map .name := by
  induction components with
  | nil => exact ⟨[], rfl⟩
  | cons component components ih =>
    obtain ⟨⟨name, rfl⟩, hrest⟩ := List.forall_mem_cons.1 h
    obtain ⟨names, rfl⟩ := ih hrest
    exact ⟨name :: names, rfl⟩

/-- An absolute path that does not go up leads down from the root by names. -/
theorem exists_names_of_isAbsolute (h : path.isAbsolute = true) (hup : .up ∉ path.components) :
    ∃ names : List Segment, path.components = .root :: names.map .name := by
  obtain ⟨rest, hrest, hcomponents⟩ := exists_components_of_isAbsolute h
  have hname : ∀ component ∈ rest, ∃ name, component = .name name := fun component hmem =>
    (hcomponents component hmem).resolve_left fun heq =>
      hup (hrest ▸ List.mem_cons_of_mem _ (heq ▸ hmem))
  obtain ⟨names, rfl⟩ := exists_eq_map_name hname
  exact ⟨names, hrest⟩

theorem isAbsolute_join (h : base.isAbsolute = true) (relative : String) :
    (base.join relative).isAbsolute = true := by
  have hhead : base.text.toList.head? = some '/' := by simpa [isAbsolute] using h
  rw [join]
  split
  · exact h
  · split <;> simp [isAbsolute, hhead]

/-- Appending segments to a path that is not empty adds the components that they stand for. -/
theorem components_join_of_text (hbase : base.text.toList ≠ [])
    (h : ∀ segment ∈ segs, IsSegment segment) :
    (base.join (relativeText segs)).components =
      base.components ++ segs.filterMap fun segment => (innerPart segment).2 := by
  obtain ⟨front, blank, hparts, hblank, hjoin⟩ := exists_parts_join_of_text hbase h
  rw [components, components, hparts, hjoin, List.filterMap_append, List.filterMap_append,
    filterMap_blank hblank, List.append_nil, List.filterMap_map]
  rfl

/-- The components to which a course leads from names below the root, the last in front. However far
it climbs, the root stays. -/
def placeOf (names : List Segment) (course : Course) : List Component :=
  course.names.map .name ++ ((names.reverse.drop course.climbed).map .name ++ [.root])

/-- Following one segment more is taking its component, if it stands for one. -/
theorem placeOf_follow (names : List Segment) (course : Course) {segment : Segment}
    (h : IsSegment segment) :
    placeOf names (course.follow segment) =
      ((innerPart segment).2.map (tidyStep (placeOf names course))).getD
        (placeOf names course) := by
  rw [Course.follow, innerPart]
  by_cases hdot : segment = ['.']
  · simp [hdot]
  by_cases hup : segment = ['.', '.']
  · subst hup
    simp only [List.cons_ne_nil, List.cons.injEq, and_false, or_self, ↓reduceIte,
      Option.map_some, Option.getD_some]
    cases hnames : course.names with
    | cons name left => simp [placeOf, hnames, tidyStep]
    | nil =>
      -- No name of the segments is left, so that one of the names in front is climbed out of.
      have htail : names.reverse.drop (course.climbed + 1) =
        (names.reverse.drop course.climbed).tail := List.tail_drop.symm
      simp only [placeOf, hnames, List.map_nil, List.nil_append, htail]
      cases names.reverse.drop course.climbed <;> rfl
  · simp [hdot, hup, h.1, placeOf, tidyStep]

theorem foldl_tidyStep_names (names : List Segment) (above : List Component) :
    (names.map Component.name).foldl tidyStep above = (names.reverse.map .name) ++ above := by
  induction names generalizing above with
  | nil => rfl
  | cons name names ih => simp [ih, tidyStep]

/-- A whole course is followed segment by segment. -/
theorem foldl_tidyStep_segments (names : List Segment) (h : ∀ segment ∈ segs, IsSegment segment)
    (start : Course) :
    (segs.filterMap fun segment => (innerPart segment).2).foldl tidyStep (placeOf names start) =
      placeOf names (segs.foldl Course.follow start) := by
  induction segs generalizing start with
  | nil => rfl
  | cons segment segs ih =>
    obtain ⟨hsegment, hsegs⟩ := List.forall_mem_cons.1 h
    rw [List.foldl_cons, ← ih hsegs, placeOf_follow names start hsegment, List.filterMap_cons]
    cases (innerPart segment).2 <;> rfl

/-- Appended to names below the root, segments lead where their course does. -/
theorem tidied_join (hbase : base.components = .root :: names.map .name)
    (habsolute : base.isAbsolute = true) (h : ∀ segment ∈ segs, IsSegment segment) :
    (base.join (relativeText segs)).tidied =
      .root :: (names.take (names.length - climbs segs) ++ namesLeft segs).map .name := by
  have htext : base.text.toList ≠ [] := by
    rintro hnil
    simp [isAbsolute, hnil] at habsolute
  have hbegin : base.components.foldl tidyStep [] = placeOf names ⟨0, []⟩ := by
    rw [hbase, List.foldl_cons, foldl_tidyStep_names]
    rfl
  rw [tidied, components_join_of_text htext h, List.foldl_append, hbegin,
    foldl_tidyStep_segments names h]
  change (placeOf names (course segs)).reverse = _
  simp [placeOf, climbs, namesLeft, List.drop_reverse]

theorem name_injective : Function.Injective Component.name := fun _ _ h =>
  Component.name.inj h

/-- What has climbed out of names is below them again just if it has come back by the same ones. -/
theorem prefix_iff_of_climbed (names left : List Segment) (climbed : Nat) :
    Component.root :: names.map .name <+:
        .root :: (names.take (names.length - climbed) ++ left).map .name ↔
      names.drop (names.length - climbed) <+: left := by
  have hnames := List.take_append_drop (names.length - climbed) names
  rw [List.cons_prefix_cons, and_iff_right rfl, List.prefix_map_iff_of_injective name_injective]
  nth_rewrite 1 [← hnames]
  exact List.prefix_append_right_inj _

end VfsPath

namespace Filesystem

open SubvolumeTree VfsPath

variable {fs : Filesystem} {path : String} {above : Subvolume} {m : Mountpoint}

/-- A path that is reached through a subvolume above it is resolved to an absolute target: what it
has below that subvolume, appended to the mount. Where mounts are absolute and do not go up, the
target leads from the mount to where these segments lead. It lies at or below the mount just if it
comes back by the names that it has climbed out of, and so in any case if it does not climb; without
`..` it never does. -/
theorem childPath_confined_unless_climbs (hfs : fs.Reachable)
    (hmounts : ∀ m ∈ fs.mounts.mountpoints, m.path.isAbsolute = true ∧ .up ∉ m.path.components)
    (hentrance : fs.subvolumes.entrance? path = some (above, m))
    (habove : IsAbove above.path (normalize path)) :
    ∃ (target : VfsPath) (names rest : List Segment), fs.subvolumes.childPath path = .ok target ∧
      m.path.components = .root :: names.map .name ∧ rest ≠ [] ∧
      segments path = segments above.path ++ rest ∧ target = m.path.join (relativeText rest) ∧
      target.isAbsolute = true ∧
      target.tidied =
        .root :: (names.take (names.length - climbs rest) ++ namesLeft rest).map .name ∧
      (m.path.components <+: target.tidied ↔
        names.drop (names.length - climbs rest) <+: namesLeft rest) ∧
      (climbs rest = 0 → m.path.components <+: target.tidied) ∧
      (['.', '.'] ∉ rest → climbs rest = 0) := by
  obtain ⟨hmem, hm⟩ := mem_toList_of_entrance? hentrance
  -- The mount that is found is one of those that are absolute and do not go up.
  have hlisted : m ∈ fs.mounts.mountpoints := by
    rw [hfs.consistent.mountpoints_eq hmem] at hm
    exact (MountTable.mem_mountsOf.1 (List.mem_of_head? hm)).1
  obtain ⟨habsolute, hup⟩ := hmounts m hlisted
  obtain ⟨names, hnames⟩ := exists_names_of_isAbsolute habsolute hup
  obtain ⟨rest, hne, hrest⟩ := habove.exists_rest
  have hsegments : ∀ segment ∈ rest, IsSegment segment := fun segment hsegment =>
    isSegment_of_mem_segments (hrest ▸ List.mem_append_right _ hsegment)
  have hrelative : above.relativeChild (normalize path) = .ok (relativeText rest) :=
    relativeChild_of_segments (hfs.consistent.normal_paths _ hmem) (isNormal_normalize path) hrest
  have htarget : fs.subvolumes.childPath path = .ok (m.path.join (relativeText rest)) := by
    rw [childPath_of_entrance?_eq_some hentrance, hrelative]
    rfl
  have htidied := tidied_join hnames habsolute hsegments
  have hconfined : m.path.components <+: (m.path.join (relativeText rest)).tidied ↔
      names.drop (names.length - climbs rest) <+: namesLeft rest := by
    rw [hnames, htidied]
    exact prefix_iff_of_climbed names (namesLeft rest) (climbs rest)
  refine ⟨_, names, rest, htarget, hnames, hne, by simpa using hrest, rfl,
    isAbsolute_join habsolute _, htidied, hconfined, fun hclimbs => ?_, climbs_eq_zero⟩
  rw [hconfined, hclimbs, Nat.sub_zero, List.drop_length]
  exact List.nil_prefix

/-- A target that goes up and down within a mount, and one that comes back to it. -/
theorem childPath_confined_unless_climbs_back :
    let m : Mountpoint := ⟨⟨"//mnt/./a/"⟩, ⟨"/dev/sda"⟩, 257, "/data"⟩
    let fs := ((Filesystem.new "1111" none [⟨"/dev/sda"⟩]).updateSubvolumes
      [.ofListed 257 "/data" (some 5)]).updateMountpoints [m]
    fs.Reachable ∧
      (∀ m ∈ fs.mounts.mountpoints, m.path.isAbsolute = true ∧ .up ∉ m.path.components) ∧
      fs.subvolumes.childPath "data/x/./../y" = .ok ⟨"//mnt/./a/x/./../y"⟩ ∧
      m.path.components <+: (VfsPath.mk "//mnt/./a/x/./../y").tidied ∧
      fs.subvolumes.childPath "/data/../../mnt/a/y" = .ok ⟨"//mnt/./a/../../mnt/a/y"⟩ ∧
      m.path.components <+: (VfsPath.mk "//mnt/./a/../../mnt/a/y").tidied := by
  intro m fs
  have hfs : fs.Reachable := reachable_of_listing _ _ _ (by decide) _
  have hmounts : ∀ m ∈ fs.mounts.mountpoints,
      m.path.isAbsolute = true ∧ .up ∉ m.path.components := by decide
  let data : Subvolume := ⟨257, "/data", some 5, [m]⟩
  have hwithin : fs.subvolumes.entrance? "data/x/./../y" = some (data, m) := by decide
  have hback : fs.subvolumes.entrance? "/data/../../mnt/a/y" = some (data, m) := by decide
  have hchild : fs.subvolumes.childPath "data/x/./../y" = .ok ⟨"//mnt/./a/x/./../y"⟩ := by decide
  have hchild' :
      fs.subvolumes.childPath "/data/../../mnt/a/y" = .ok ⟨"//mnt/./a/../../mnt/a/y"⟩ := by decide
  refine ⟨hfs, hmounts, hchild, ?_, hchild', ?_⟩
  · obtain ⟨target, names, rest, htarget, -, -, hrest, -, -, -, -, hclimbs, -⟩ :=
      childPath_confined_unless_climbs hfs hmounts hwithin (by decide)
    obtain rfl := Except.ok.inj (hchild.symm.trans htarget)
    have hsegments : segments "data/x/./../y" =
        segments data.path ++ ["x".toList, ".".toList, "..".toList, "y".toList] := by decide
    obtain rfl := List.append_cancel_left (hsegments.symm.trans hrest)
    exact hclimbs (by decide)
  · obtain ⟨target, names, rest, htarget, hnames, -, hrest, -, -, -, hconfined, -, -⟩ :=
      childPath_confined_unless_climbs hfs hmounts hback (by decide)
    obtain rfl := Except.ok.inj (hchild'.symm.trans htarget)
    have hsegments : segments "/data/../../mnt/a/y" = segments data.path ++
        ["..".toList, "..".toList, "mnt".toList, "a".toList, "y".toList] := by decide
    obtain rfl := List.append_cancel_left (hsegments.symm.trans hrest)
    have hcomponents : m.path.components =
        .root :: ["mnt".toList, "a".toList].map Component.name := by decide
    rw [hcomponents] at hnames
    obtain rfl := List.map_injective_iff.2 name_injective (List.cons.inj hnames).2
    exact hconfined.2 (by decide)

/-- A target that goes up from the mount of the top-level subvolume lies outside it. -/
theorem not_confined_of_up :
    let m : Mountpoint := ⟨⟨"/mnt"⟩, ⟨"/dev/sda"⟩, 5, "/"⟩
    let fs := (Filesystem.new "1111" none [⟨"/dev/sda"⟩]).updateMountpoints [m]
    let root : Subvolume := ⟨5, "/", none, [m]⟩
    fs.Reachable ∧
      (∀ m ∈ fs.mounts.mountpoints, m.path.isAbsolute = true ∧ .up ∉ m.path.components) ∧
      fs.subvolumes.entrance? "/../etc" = some (root, m) ∧
      IsAbove root.path (normalize "/../etc") ∧
      fs.subvolumes.childPath "/../etc" = .ok ⟨"/mnt/../etc"⟩ ∧
      (VfsPath.mk "/mnt/../etc").tidied = [.root, .name "etc".toList] ∧
      ¬ m.path.components <+: (VfsPath.mk "/mnt/../etc").tidied := by
  intro m fs root
  have hfs : fs.Reachable :=
    ⟨_, .new "1111" none [⟨"/dev/sda"⟩], .single (step_updateMountpoints _ [m])⟩
  exact ⟨hfs, by decide, by decide, by decide, by decide, by decide, by decide⟩

end Filesystem

end BtrfsTopology
