import BtrfsTopology.Proofs.ResolvedTarget

/-!
# The two ways to resolve a path agree

A subvolume is resolved from itself upwards, a path from the subvolume that contains it. For an
unmounted subvolume the two ways differ by the first step only, which counts for nothing, and so
they enter the mounted file tree at the same subvolume. A path that is that of no subvolume is
resolved from the nearest one, from which that one is resolved itself; as what is left of a text
behind another goes on when the text does, the path is reached below the nearest subvolume at the
segments that it has more. None of this needs a relation between parents and paths.

## Main results

* `SubvolumeTree.entrance?_of_atPath?`, `SubvolumeTree.entrance?_of_vacant` — where a path is
  entered
* `InternalPath.exists_relativeChild_append` — what is left of a path and of all paths below it
* `VfsPath.join_relativeText_append` — segments appended at once or in two parts
* `Filesystem.resolvers_agree` — how resolved subvolumes and resolved paths lie to each other
-/

namespace BtrfsTopology

open InternalPath

/-! ## Texts of segments in two parts -/

namespace InternalPath

variable {front back segs : List Segment}

theorem relativeText_append (hfront : front ≠ []) (hback : back ≠ []) :
    relativeText (front ++ back) = relativeText front ++ "/" ++ relativeText back := by
  obtain ⟨first, front, rfl⟩ := List.exists_cons_of_ne_nil hfront
  obtain ⟨next, back, rfl⟩ := List.exists_cons_of_ne_nil hback
  rw [← String.toList_inj]
  simp [relativeText, intercalate_segments]

/-- The text of segments does not end with a slash. -/
theorem getLast?_relativeText (h : ∀ segment ∈ segs, IsSegment segment) :
    (relativeText segs).toList.getLast? ≠ some '/' := by
  rcases List.eq_nil_or_concat segs with rfl | ⟨front, last, rfl⟩
  · nofun
  · rw [List.concat_eq_append] at h ⊢
    obtain ⟨hne, hslash⟩ := h last (by simp)
    have htext : (relativeText (front ++ [last])).toList =
        ['/'].intercalate (front ++ [[]]) ++ last :=
      String.toList_ofList.trans (Text.intercalate_concat_append '/' front [] last)
    rw [htext, List.getLast?_append_of_ne_nil _ hne]
    exact fun heq => hslash (List.mem_of_getLast? heq)

/-- What is left of a path behind another are segments, though the first may be broken, and of a
path below it the further segments are left behind these. -/
theorem exists_relativeChild_append {above path : String} {relative : String}
    (habove : IsNormal above) (hpath : IsNormal path)
    (h : relativeChild above path = .ok relative) :
    ∃ front, (∀ segment ∈ front, IsSegment segment) ∧ relative = relativeText front ∧
      ∀ {below : String} {rest : List Segment}, IsNormal below →
        segments below = segments path ++ rest →
        relativeChild above below = .ok (relativeText (front ++ rest)) := by
  by_cases hprefix : IsAtOrAbove above path
  · obtain ⟨front, hfront⟩ := hprefix
    rw [relativeChild_of_segments habove hpath hfront.symm] at h
    refine ⟨front, fun segment hsegment => ?_, (Except.ok.inj h).symm, fun hbelow hrest => ?_⟩
    · exact isSegment_of_mem_segments (hfront ▸ List.mem_append_right _ hsegment)
    · refine relativeChild_of_segments habove hbelow ?_
      rw [hrest, ← hfront, List.append_assoc]
  · by_cases hbreaks : BreaksOffIn above path
    · obtain ⟨outer, name, tail, inner, hends, hgoes, htail⟩ := hbreaks
      rw [relativeChild_of_breaksOff habove hpath hends hgoes htail] at h
      refine ⟨tail :: inner, ?_, (Except.ok.inj h).symm, fun hbelow hrest => ?_⟩
      · have hsegment (segment : Segment) (hmem : segment ∈ (name ++ tail) :: inner) :
            IsSegment segment :=
          isSegment_of_mem_segments (hgoes ▸ List.mem_append_right outer hmem)
        rintro segment (_ | ⟨_, hmem⟩)
        · have hbroken := hsegment _ List.mem_cons_self
          exact ⟨htail, fun hslash => hbroken.2 (List.mem_append_right name hslash)⟩
        · exact hsegment segment (List.mem_cons_of_mem _ hmem)
      · -- A longer path is broken off in the same segment.
        refine relativeChild_of_breaksOff habove hbelow hends ?_ htail
        rw [hrest, hgoes, List.append_assoc]
        rfl
    · rw [relativeChild_of_astray habove hpath hprefix hbreaks] at h
      exact nomatch h

end InternalPath

namespace VfsPath

/-- A path has a text of its own in front of whatever is appended to it. -/
theorem exists_join_eq (base : VfsPath) :
    ∃ lead, ∀ relative : String, relative.toList ≠ [] →
      base.join relative = ⟨lead ++ relative⟩ := by
  by_cases hlead : base.text.toList = [] ∨ base.text.toList.getLast? = some '/'
  · exact ⟨base.text, fun relative hne => by rw [join, if_neg hne, if_pos hlead]⟩
  · exact ⟨base.text ++ "/", fun relative hne => by rw [join, if_neg hne, if_neg hlead]⟩

/-- Segments can be appended to a path in two parts. -/
theorem join_relativeText_append (base : VfsPath) {front back : List Segment}
    (hfront : ∀ segment ∈ front, IsSegment segment) (hback : ∀ segment ∈ back, IsSegment segment)
    (hne : back ≠ []) :
    base.join (relativeText (front ++ back)) =
      (base.join (relativeText front)).join (relativeText back) := by
  by_cases hnil : front = []
  · obtain rfl := hnil
    rfl
  · obtain ⟨lead, hlead⟩ := base.exists_join_eq
    have hfrontText := toList_relativeText_ne_nil hfront hnil
    have hbackText := toList_relativeText_ne_nil hback hne
    -- The first part does not end with a slash, so that one is put in front of the second.
    have hslash : ¬ ((lead ++ relativeText front).toList = [] ∨
        (lead ++ relativeText front).toList.getLast? = some '/') := by
      rw [String.toList_append, List.getLast?_append_of_ne_nil _ hfrontText]
      exact not_or.2
        ⟨List.append_ne_nil_of_right_ne_nil _ hfrontText, getLast?_relativeText hfront⟩
    have hjoin : (⟨lead ++ relativeText front⟩ : VfsPath).join (relativeText back) =
        ⟨lead ++ relativeText front ++ "/" ++ relativeText back⟩ := by
      rw [join, if_neg hbackText, if_neg hslash]
    rw [relativeText_append hnil hne, hlead _ hfrontText, hjoin, hlead]
    · simp only [String.append_assoc]
    · rw [String.toList_append]
      exact List.append_ne_nil_of_right_ne_nil _ hbackText

end VfsPath

/-- What a path leaves behind another is resolved to some path; then what a path below it leaves is
resolved to the further segments below that one. -/
theorem InternalPath.map_join_relativeChild {base resolved : VfsPath} {above path below : String}
    {rest : List Segment}
    (habove : IsNormal above) (hpath : IsNormal path) (hbelow : IsNormal below)
    (h : (relativeChild above path).map base.join = .ok resolved)
    (hrest : segments below = segments path ++ rest) (hne : rest ≠ []) :
    (relativeChild above below).map base.join = .ok (resolved.join (relativeText rest)) := by
  cases hrelative : relativeChild above path with
  | error e => simp [hrelative, Except.map] at h
  | ok relative =>
    rw [hrelative] at h
    obtain rfl := Except.ok.inj h
    obtain ⟨front, hfront, rfl, hchild⟩ := exists_relativeChild_append habove hpath hrelative
    have hsegments : ∀ segment ∈ rest, IsSegment segment := fun segment hsegment =>
      isSegment_of_mem_segments (hrest ▸ List.mem_append_right _ hsegment)
    rw [hchild hbelow hrest, ← base.join_relativeText_append hfront hsegments hne]
    rfl

namespace SubvolumeTree

variable {tree : SubvolumeTree} {path : String} {s above : Subvolume} {m : Mountpoint}
  {resolved : VfsPath}

/-! ## Where a path is entered -/

section Entrance

variable (hkeyed : tree.IsKeyed)
include hkeyed

/-- The way up from an unmounted subvolume is the one from its parent. -/
theorem mountedAncestor?_of_unmounted (hs : s ∈ tree.toList) (hmounts : s.mountpoints = []) :
    tree.mountedAncestor? s.id =
      (tree.parentOf? s).bind fun above => tree.mountedAncestor? above.id := by
  have hhead := List.head?_eq_none_iff.2 hmounts
  refine Option.ext fun reached => ?_
  -- How many steps a way has does not matter to the search, so one step may be added or taken off.
  rw [mountedAncestor?_eq_some_iff, Option.bind_eq_some_iff]
  constructor
  · rintro ⟨s', n, hget, hclimbs⟩
    obtain rfl : s = s' := Option.some.inj ((hkeyed.get?_id hs).symm.trans hget)
    cases hclimbs with
    | arrived hm => exact absurd (hm.symm.trans hhead) (Option.some_ne_none _)
    | step _ hup habove =>
      have habove' := hkeyed.get?_id (mem_toList_of_parentOf? hup)
      exact ⟨_, hup, mountedAncestor?_eq_some_iff.2 ⟨_, _, habove', habove⟩⟩
  · rintro ⟨above, hup, hfound⟩
    obtain ⟨above', n, hget, hclimbs⟩ := mountedAncestor?_eq_some_iff.1 hfound
    obtain rfl : above = above' :=
      Option.some.inj ((hkeyed.get?_id (mem_toList_of_parentOf? hup)).symm.trans hget)
    exact ⟨s, n + 1, hkeyed.get?_id hs, .step hhead hup hclimbs⟩

/-- The path of an unmounted subvolume is entered where the way up from that one meets a mount. -/
theorem entrance?_of_atPath? (hs : tree.atPath? path = some s) (hmounts : s.mountpoints = []) :
    tree.entrance? path = tree.mountedAncestor? s.id := by
  have hmem := mem_toList_of_findPath? hs
  -- The subvolume is the nearest one to its own path, which is therefore entered from its parent.
  have hnearest : s = tree.nearest path := searchEnds_iff.1 (.found hs)
  have hpath : (tree.nearest path).path = normalize path := hnearest ▸ path_of_findPath? hs
  rw [entrance?, container?, if_pos hpath, ← hnearest, parent?, hkeyed.get?_id hmem,
    mountedAncestor?_of_unmounted hkeyed hmem hmounts]
  rfl

/-- A path that is that of no subvolume is entered where the way up from the nearest one meets a
mount. -/
theorem entrance?_of_vacant (h : tree.atPath? path = none) :
    tree.entrance? path = tree.mountedAncestor? (tree.nearest path).id := by
  have hne : (tree.nearest path).path ≠ normalize path := by
    rw [ne_eq, hkeyed.path_nearest_eq_iff, h]
    nofun
  rw [entrance?, container?, if_neg hne, Option.bind_some]

end Entrance

/-! ## What is resolved -/

/-- An unmounted subvolume and its path are resolved alike. -/
theorem mountedPath?_iff_childPath (hkeyed : tree.IsKeyed) (hs : tree.atPath? path = some s)
    (hmounts : s.mountpoints = []) :
    tree.mountedPath? s.id = some resolved ↔ tree.childPath path = .ok resolved := by
  have hmem := mem_toList_of_findPath? hs
  have hentrance := entrance?_of_atPath? hkeyed hs hmounts
  cases hfound : tree.mountedAncestor? s.id with
  | none =>
    rw [hfound] at hentrance
    simp [childPath_of_entrance?_eq_none hentrance, mountedPath?, hfound]
  | some found =>
    rw [hfound] at hentrance
    rw [mountedPath?_eq_some_iff (hkeyed.get?_id hmem) hfound,
      childPath_of_entrance?_eq_some hentrance, path_of_findPath? hs]

/-- A path that is that of no subvolume is below the nearest one, and reached below it. -/
theorem exists_childPath_of_vacant (hkeyed : tree.IsKeyed) (hnormal : tree.HasNormalPaths)
    (h : tree.atPath? path = none) :
    ∃ rest, rest ≠ [] ∧ segments path = segments (tree.nearest path).path ++ rest ∧
      ∀ resolved, tree.mountedPath? (tree.nearest path).id = some resolved →
        tree.childPath path = .ok (resolved.join (relativeText rest)) := by
  have hnearest := isDeepest_nearest hkeyed hnormal path
  have hnearestNormal := hnormal _ hnearest.mem
  obtain ⟨rest, hrest⟩ := hnearest.holds
  have hne : rest ≠ [] := by
    rintro rfl
    rw [List.append_nil] at hrest
    have hpath := hnearestNormal.eq_of_segments (isNormal_normalize path)
      (by rw [hrest, segments_normalize])
    rw [hkeyed.path_nearest_eq_iff, h] at hpath
    exact nomatch hpath
  refine ⟨rest, hne, hrest.symm, fun resolved hresolved => ?_⟩
  have hentrance := entrance?_of_vacant hkeyed h
  cases hfound : tree.mountedAncestor? (tree.nearest path).id with
  | none => simp [mountedPath?, hfound] at hresolved
  | some found =>
    obtain ⟨above, m⟩ := found
    rw [hfound] at hentrance
    rw [mountedPath?_eq_some_iff (hkeyed.get?_id hnearest.mem) hfound] at hresolved
    rw [childPath_of_entrance?_eq_some hentrance]
    exact map_join_relativeChild (hnormal _ (mem_toList_of_mountedAncestor? hfound).1)
      hnearestNormal (isNormal_normalize path) hresolved (by rw [segments_normalize, hrest]) hne

end SubvolumeTree

namespace Filesystem

/-- Whatever a listing says of parents, an unmounted subvolume is resolved to a path just when the
path under which it is found is, and then both are resolved to the same. A path that is that of no
subvolume has further segments behind the nearest one; if that one is resolved, the path is resolved
to these segments below it. -/
theorem resolvers_agree {fs : Filesystem} (hfs : fs.Reachable) :
    (∀ path s, fs.subvolumes.atPath? path = some s → s.mountpoints = [] → ∀ resolved,
      fs.subvolumes.mountedPath? s.id = some resolved ↔
        fs.subvolumes.childPath path = .ok resolved) ∧
    ∀ path, fs.subvolumes.atPath? path = none →
      ∃ rest, rest ≠ [] ∧
        segments (normalize path) = segments (fs.subvolumes.nearest path).path ++ rest ∧
        ∀ resolved, fs.subvolumes.mountedPath? (fs.subvolumes.nearest path).id = some resolved →
          fs.subvolumes.childPath path = .ok (resolved.join (relativeText rest)) := by
  have hkeyed := hfs.consistent.tree_keyed
  refine ⟨fun path s hs hmounts _ => SubvolumeTree.mountedPath?_iff_childPath hkeyed hs hmounts,
    fun path h => ?_⟩
  rw [segments_normalize]
  exact SubvolumeTree.exists_childPath_of_vacant hkeyed hfs.consistent.normal_paths h

/-- A subvolume mounted at the root, one beside it that is stated to be in it and whose name goes on
where its name ends, and two that are stated to be in each other. -/
theorem resolvers_agree_stale :
    let listing : List Subvolume :=
      [.ofListed 257 "/data" (some 5), .ofListed 258 "/database" (some 257),
        .ofListed 259 "/x" (some 260), .ofListed 260 "/y" (some 259)]
    let fs := ((Filesystem.new "1111" none [⟨"/dev/sda"⟩]).updateSubvolumes listing).updateMountpoints
      [⟨⟨"/"⟩, ⟨"/dev/sda"⟩, 257, "/data"⟩]
    fs.Reachable ∧
      fs.subvolumes.mountedPath? 258 = some ⟨"/base"⟩ ∧
      fs.subvolumes.childPath "database/" = .ok ⟨"/base"⟩ ∧
      fs.subvolumes.childPath "/database/a//b" = .ok ⟨"/base/a/b"⟩ ∧
      ∀ resolved, fs.subvolumes.childPath "/x" ≠ .ok resolved := by
  intro listing fs
  have hfs : fs.Reachable := reachable_of_listing _ _ _ (by decide) _
  have hpath : fs.subvolumes.mountedPath? 258 = some ⟨"/base"⟩ := by decide
  have hnone : fs.subvolumes.mountedPath? 259 = none := by decide
  obtain ⟨hown, hvacant⟩ := resolvers_agree hfs
  refine ⟨hfs, hpath, ?_, ?_, fun resolved hresolved => ?_⟩
  · exact (hown _ ⟨258, "/database", some 257, []⟩ (by decide) rfl _).1 hpath
  · obtain ⟨rest, -, hrest, hbelow⟩ := hvacant "/database/a//b" (by decide)
    have hnearest : segments (normalize "/database/a//b") =
        segments (fs.subvolumes.nearest "/database/a//b").path ++ [['a'], ['b']] := by decide
    obtain rfl := List.append_cancel_left (hrest.symm.trans hnearest)
    exact hbelow _ hpath
  · have hsome := (hown "/x" ⟨259, "/x", some 260, []⟩ (by decide) rfl resolved).2 hresolved
    exact Option.some_ne_none _ (hsome.symm.trans hnone)

end Filesystem

end BtrfsTopology
