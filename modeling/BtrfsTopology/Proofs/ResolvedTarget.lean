import BtrfsTopology.Proofs.ChildPath

/-!
# What a resolved path denotes

A path is resolved through the first mounted subvolume on the way up from it. The way goes by the
identifiers of parents, and a listing may state these in any relation to the paths. What is appended
to the mount is found by comparing texts. The text of a path begins that of another when the path is
at or above the other, but also when it breaks off inside a segment: `/data` begins `/data/x` as well
as `/database`. So a resolved path denotes its target, unless the subvolume that was found has a path
that breaks off in that of the target; then it denotes another place below that subvolume's mount.

## Main definitions

* `InternalPath.BreaksOffIn` — a path ends inside a segment of another
* `SubvolumeTree.IsReachedAt` — a path of the mounted file tree denotes an internal path

## Main results

* `InternalPath.breaksOffIn_iff` — which beginnings of a path's text are no paths at or above it
* `InternalPath.relativeChild_of_breaksOff` — what is left of a path behind such a beginning
* `SubvolumeTree.childPath_of_entrance?_eq_some`, `SubvolumeTree.mountedPath?_eq_some_iff` — what is
  resolved is what the texts leave, appended to a mount
* `SubvolumeTree.isReachedAt_or_breaksOff` — what is resolved denotes the target, or the path of the
  mounted subvolume breaks off in it
-/

namespace BtrfsTopology

namespace InternalPath

/-- A path ends inside a segment of another: its last segment begins a longer one there. -/
def BreaksOffIn (path other : String) : Prop :=
  ∃ above name tail below, segments path = above ++ [name] ∧
    segments other = above ++ (name ++ tail) :: below ∧ tail ≠ []

variable {path other : String} {above below segs : List Segment} {name tail : Segment}

/-! ## Beginnings of texts -/

theorem head?_slashed (segs : List Segment) :
    ∀ c ∈ (segs.flatMap ('/' :: ·)).head?, c = '/' := by
  cases segs with
  | nil => simp
  | cons segment rest =>
    intro c hc
    exact (Option.some.inj hc).symm

/-- A name that begins a text of a segment and slashed ones begins that segment. -/
theorem exists_of_name_append {segment : Segment} {behind rest : List Char} (hname : '/' ∉ name)
    (hbehind : ∀ c ∈ behind.head?, c = '/') (h : segment ++ behind = name ++ rest) :
    ∃ tail, segment = name ++ tail ∧ rest = tail ++ behind := by
  rcases List.append_eq_append_iff.1 h with ⟨gap, rfl, hgap⟩ | ⟨tail, hsegment, hrest⟩
  · cases gap with
    | nil => exact ⟨[], by simp, by simpa using hgap.symm⟩
    | cons c gap =>
      -- The name would go on behind the segment, where there is a slash.
      obtain rfl : c = '/' := hbehind c (by simp [hgap])
      exact absurd (List.mem_append_right segment List.mem_cons_self) hname
  · exact ⟨tail, hsegment, hrest⟩

/-- Slashed segments that begin others are the first of these, or the last of them begins a longer
segment. -/
theorem slashed_eq_append {front : List Segment} {rest : List Char} (hne : front ≠ [])
    (hfront : ∀ segment ∈ front, IsSegment segment) (hsegs : ∀ segment ∈ segs, IsSegment segment)
    (h : segs.flatMap ('/' :: ·) = front.flatMap ('/' :: ·) ++ rest) :
    front <+: segs ∨ ∃ above name tail below, front = above ++ [name] ∧
      segs = above ++ (name ++ tail) :: below ∧ tail ≠ [] := by
  induction front generalizing segs with
  | nil => exact absurd rfl hne
  | cons name front ih =>
    cases segs with
    | nil => simp at h
    | cons segment segs =>
      have hname : '/' ∉ name := (hfront name List.mem_cons_self).2
      have htexts : segment ++ segs.flatMap ('/' :: ·) =
          name ++ (front.flatMap ('/' :: ·) ++ rest) := by simpa using h
      obtain ⟨tail, rfl, hrest⟩ := exists_of_name_append hname (head?_slashed segs) htexts
      cases front with
      | nil =>
        by_cases htail : tail = []
        · exact .inl ⟨segs, by simp [htail]⟩
        · exact .inr ⟨[], name, tail, segs, rfl, rfl, htail⟩
      | cons next front =>
        cases tail with
        | nil =>
          rcases ih (List.cons_ne_nil next front)
              (fun other hother => hfront other (List.mem_cons_of_mem name hother))
              (fun other hother => hsegs other (List.mem_cons_of_mem _ hother)) hrest.symm with
            hbegins | ⟨above, last, tail, below, hlast, rfl, htail⟩
          · rw [List.append_nil]
            exact .inl (List.cons_prefix_cons.2 ⟨rfl, hbegins⟩)
          · exact .inr ⟨name :: above, last, tail, below, by simp [hlast], by simp, htail⟩
        | cons c tail =>
          -- The next segment has a slash in front, which the longer one has not.
          obtain rfl : '/' = c := by simpa using congrArg List.head? hrest
          exact absurd (List.mem_append_right name List.mem_cons_self)
            (hsegs _ List.mem_cons_self).2

/-- The text of a path goes on behind another that breaks off in it. -/
theorem toList_of_breaksOff (hpath : IsNormal path) (hother : IsNormal other)
    (hends : segments path = above ++ [name])
    (hgoes : segments other = above ++ (name ++ tail) :: below) :
    other.toList = path.toList ++ (tail ++ below.flatMap ('/' :: ·)) := by
  rw [← hpath.ofSegments_segments, ← hother.ofSegments_segments, hends, hgoes,
    toList_ofSegments (by simp), toList_ofSegments (by simp)]
  simp

/-- Which beginnings of a path's text are no paths at or above it. -/
theorem breaksOffIn_iff (hpath : IsNormal path) (hother : IsNormal other) :
    BreaksOffIn path other ↔ path.toList <+: other.toList ∧ ¬ IsAtOrAbove path other := by
  constructor
  · rintro ⟨above, name, tail, below, hends, hgoes, htail⟩
    refine ⟨⟨_, (toList_of_breaksOff hpath hother hends hgoes).symm⟩, fun habove => htail ?_⟩
    rw [IsAtOrAbove, hends, hgoes, List.prefix_append_right_inj, List.cons_prefix_cons] at habove
    simpa using habove.1
  · rintro ⟨⟨rest, hrest⟩, habove⟩
    have hpathNe : segments path ≠ [] := fun hnil =>
      habove (by rw [IsAtOrAbove, hnil]; exact List.nil_prefix)
    have hotherNe : segments other ≠ [] := by
      -- The text of the root begins with no other text than its own.
      intro hnil
      obtain rfl := hother.eq_root hnil
      obtain ⟨inner, hinner⟩ := hpath.exists_slash
      obtain rfl : inner = [] := by simp_all
      exact hpathNe (congrArg segments (String.toList_inj.1 hinner : path = "/"))
    rw [← hpath.ofSegments_segments, ← hother.ofSegments_segments, toList_ofSegments hpathNe,
      toList_ofSegments hotherNe] at hrest
    exact (slashed_eq_append hpathNe (fun _ => isSegment_of_mem_segments)
      (fun _ => isSegment_of_mem_segments) hrest.symm).resolve_left habove

/-- What is left of a path behind another that breaks off in it begins with the rest of the segment
that is broken. -/
theorem relativeChild_of_breaksOff (hpath : IsNormal path) (hother : IsNormal other)
    (hends : segments path = above ++ [name])
    (hgoes : segments other = above ++ (name ++ tail) :: below) (htail : tail ≠ []) :
    relativeChild path other = .ok (relativeText (tail :: below)) := by
  have hdrop : (tail ++ below.flatMap ('/' :: ·)).dropWhile (· == '/') =
      ['/'].intercalate (tail :: below) := by
    obtain ⟨c, tail, rfl⟩ := List.exists_cons_of_ne_nil htail
    have hbroken : IsSegment (name ++ c :: tail) :=
      isSegment_of_mem_segments (hgoes ▸ List.mem_append_right above List.mem_cons_self)
    have hc : c ≠ '/' := fun hc => hbroken.2 (by simp [hc])
    rw [intercalate_segments, List.cons_append, List.dropWhile_cons_of_neg (by simpa using hc)]
  rw [relativeChild,
    List.isPrefixOf?_eq_some_iff_append_eq.2 (toList_of_breaksOff hpath hother hends hgoes).symm]
  simp only [hdrop, relativeText]

/-- Nothing is left of a path behind another that is neither at or above it nor breaks off in it. -/
theorem relativeChild_of_astray (hpath : IsNormal path) (hother : IsNormal other)
    (habove : ¬ IsAtOrAbove path other) (hbreaks : ¬ BreaksOffIn path other) :
    relativeChild path other = .error (.pathMismatch path other) := by
  have hbegins : ¬ path.toList <+: other.toList := fun hbegins =>
    hbreaks ((breaksOffIn_iff hpath hother).2 ⟨hbegins, habove⟩)
  rw [relativeChild, Text.isPrefixOf?_eq_none_iff.2 hbegins]

end InternalPath

open InternalPath

namespace SubvolumeTree

/-- A path of the mounted file tree denotes an internal path: what this has below some subvolume is
appended to the first mount of that subvolume. -/
def IsReachedAt (tree : SubvolumeTree) (target : String) (resolved : VfsPath) : Prop :=
  ∃ above ∈ tree.toList, ∃ m rest, above.mountpoints.head? = some m ∧
    segments target = segments above.path ++ rest ∧ resolved = m.path.join (relativeText rest)

instance (tree : SubvolumeTree) (target : String) (resolved : VfsPath) :
    Decidable (tree.IsReachedAt target resolved) :=
  decidable_of_iff
    (∃ above ∈ tree.toList, ∃ m ∈ above.mountpoints.head?, IsAtOrAbove above.path target ∧
      resolved = m.path.join (relativeText ((segments target).drop (segments above.path).length)))
    (by
      refine exists_congr fun above => and_congr_right fun _ => exists_congr fun m => ?_
      constructor
      · rintro ⟨hm, ⟨rest, hrest⟩, hresolved⟩
        rw [← hrest, List.drop_left] at hresolved
        exact ⟨rest, hm, hrest.symm, hresolved⟩
      · rintro ⟨rest, hm, hrest, hresolved⟩
        refine ⟨hm, ⟨rest, hrest.symm⟩, ?_⟩
        rw [hrest, List.drop_left]
        exact hresolved)

variable {tree : SubvolumeTree} {path target : String} {id : Nat} {s above : Subvolume}
  {m : Mountpoint} {resolved : VfsPath} {front below : List Segment} {name tail : Segment}

/-! ## Resolving by texts -/

theorem mem_toList_of_mountedAncestor? (h : tree.mountedAncestor? id = some (above, m)) :
    above ∈ tree.toList ∧ above.mountpoints.head? = some m := by
  obtain ⟨s, n, hget, hclimbs⟩ := mountedAncestor?_eq_some_iff.1 h
  exact ⟨hclimbs.mem_toList (mem_toList_of_get? hget), hclimbs.head?_mountpoints⟩

theorem mem_toList_of_entrance? (h : tree.entrance? path = some (above, m)) :
    above ∈ tree.toList ∧ above.mountpoints.head? = some m := by
  obtain ⟨s, -, hancestor⟩ := Option.bind_eq_some_iff.1 h
  exact mem_toList_of_mountedAncestor? hancestor

/-- What the texts leave of a path is appended to the mount that was found. -/
theorem childPath_of_entrance?_eq_some (h : tree.entrance? path = some (above, m)) :
    tree.childPath path = (above.relativeChild (normalize path)).map m.path.join := by
  rw [entrance?] at h
  simp only [childPath, h]

/-- What the texts leave of a subvolume's path is appended to the mount that was found. -/
theorem mountedPath?_eq_some_iff (hs : tree.get? id = some s)
    (h : tree.mountedAncestor? id = some (above, m)) :
    tree.mountedPath? id = some resolved ↔
      (above.relativeChild s.path).map m.path.join = .ok resolved := by
  simp only [mountedPath?, hs, h]
  cases above.relativeChild s.path <;> simp [Except.map]

section Found

variable (hnormal : tree.HasNormalPaths)
include hnormal

/-- A path that the texts leave appended to a mount denotes the target, unless the path of the
mounted subvolume breaks off in it. -/
theorem isReachedAt_or_breaksOff (hfound : above ∈ tree.toList ∧ above.mountpoints.head? = some m)
    (htarget : IsNormal target)
    (h : (above.relativeChild target).map m.path.join = .ok resolved) :
    tree.IsReachedAt target resolved ∨ BreaksOffIn above.path target := by
  obtain ⟨hmem, hm⟩ := hfound
  by_cases habove : IsAtOrAbove above.path target
  · obtain ⟨rest, hrest⟩ := habove
    rw [Subvolume.relativeChild,
      relativeChild_of_segments (hnormal _ hmem) htarget hrest.symm] at h
    exact .inl ⟨above, hmem, m, rest, hm, hrest.symm, (Except.ok.inj h).symm⟩
  · right
    by_contra hbreaks
    rw [Subvolume.relativeChild,
      relativeChild_of_astray (hnormal _ hmem) htarget habove hbreaks] at h
    contradiction

section Child

variable (h : tree.entrance? path = some (above, m))
include h

theorem childPath_of_astray (habove : ¬ IsAtOrAbove above.path (normalize path))
    (hbreaks : ¬ BreaksOffIn above.path (normalize path)) :
    tree.childPath path = .error (.pathMismatch above.path (normalize path)) := by
  rw [childPath_of_entrance?_eq_some h, Subvolume.relativeChild,
    relativeChild_of_astray (hnormal _ (mem_toList_of_entrance? h).1) (isNormal_normalize path)
      habove hbreaks]
  rfl

theorem childPath_of_breaksOff (hends : segments above.path = front ++ [name])
    (hgoes : segments (normalize path) = front ++ (name ++ tail) :: below) (htail : tail ≠ []) :
    tree.childPath path = .ok (m.path.join (relativeText (tail :: below))) := by
  rw [childPath_of_entrance?_eq_some h, Subvolume.relativeChild,
    relativeChild_of_breaksOff (hnormal _ (mem_toList_of_entrance? h).1) (isNormal_normalize path)
      hends hgoes htail]
  rfl

end Child

theorem isReachedAt_of_childPath (hresolved : tree.childPath path = .ok resolved) :
    tree.IsReachedAt (normalize path) resolved ∨
      ∃ above m, tree.entrance? path = some (above, m) ∧
        BreaksOffIn above.path (normalize path) := by
  cases h : tree.entrance? path with
  | none =>
    rw [childPath_of_entrance?_eq_none h] at hresolved
    contradiction
  | some found =>
    rw [childPath_of_entrance?_eq_some h] at hresolved
    exact (isReachedAt_or_breaksOff hnormal (mem_toList_of_entrance? h) (isNormal_normalize path)
      hresolved).imp_right fun hbreaks => ⟨found.1, found.2, rfl, hbreaks⟩

section Mounted

variable (hs : tree.get? id = some s)
include hs

section Ancestor

variable (h : tree.mountedAncestor? id = some (above, m))
include h

theorem mountedPath?_of_astray (habove : ¬ IsAtOrAbove above.path s.path)
    (hbreaks : ¬ BreaksOffIn above.path s.path) : tree.mountedPath? id = none := by
  rw [Option.eq_none_iff_forall_ne_some]
  intro resolved hresolved
  rw [mountedPath?_eq_some_iff hs h, Subvolume.relativeChild,
    relativeChild_of_astray (hnormal _ (mem_toList_of_mountedAncestor? h).1)
      (hnormal s (mem_toList_of_get? hs)) habove hbreaks] at hresolved
  contradiction

theorem mountedPath?_of_breaksOff (hends : segments above.path = front ++ [name])
    (hgoes : segments s.path = front ++ (name ++ tail) :: below) (htail : tail ≠ []) :
    tree.mountedPath? id = some (m.path.join (relativeText (tail :: below))) := by
  rw [mountedPath?_eq_some_iff hs h, Subvolume.relativeChild,
    relativeChild_of_breaksOff (hnormal _ (mem_toList_of_mountedAncestor? h).1)
      (hnormal s (mem_toList_of_get? hs)) hends hgoes htail]
  rfl

end Ancestor

theorem isReachedAt_of_mountedPath? (hresolved : tree.mountedPath? id = some resolved) :
    tree.IsReachedAt s.path resolved ∨
      ∃ above m, tree.mountedAncestor? id = some (above, m) ∧ BreaksOffIn above.path s.path := by
  cases h : tree.mountedAncestor? id with
  | none => simp [mountedPath?, h] at hresolved
  | some found =>
    rw [mountedPath?_eq_some_iff hs h] at hresolved
    exact (isReachedAt_or_breaksOff hnormal (mem_toList_of_mountedAncestor? h)
      (hnormal s (mem_toList_of_get? hs)) hresolved).imp_right fun hbreaks =>
        ⟨found.1, found.2, rfl, hbreaks⟩

end Mounted

end Found

end SubvolumeTree

namespace Filesystem

open SubvolumeTree

/-- Whatever a listing says of parents, a path that is resolved denotes the target: what the target
has below a subvolume is appended to that one's first mount. The exception are targets in which the
path of the mounted subvolume found on the way up breaks off. The answer is then below the mount of
that subvolume, at the rest of the broken segment. If the subvolume found is not at or above the
target otherwise, nothing is resolved. -/
theorem isReachedAt_unless_breaksOff (fs : Filesystem) (hfs : fs.Reachable) :
    (∀ path resolved, fs.subvolumes.childPath path = .ok resolved →
      fs.subvolumes.IsReachedAt (normalize path) resolved ∨
        ∃ above m, fs.subvolumes.entrance? path = some (above, m) ∧
          BreaksOffIn above.path (normalize path)) ∧
    (∀ path above m, fs.subvolumes.entrance? path = some (above, m) →
      (¬ IsAtOrAbove above.path (normalize path) → ¬ BreaksOffIn above.path (normalize path) →
        fs.subvolumes.childPath path = .error (.pathMismatch above.path (normalize path))) ∧
      ∀ front name tail below, segments above.path = front ++ [name] →
        segments (normalize path) = front ++ (name ++ tail) :: below → tail ≠ [] →
        fs.subvolumes.childPath path = .ok (m.path.join (relativeText (tail :: below)))) ∧
    (∀ id s resolved, fs.subvolumes.get? id = some s →
      fs.subvolumes.mountedPath? id = some resolved →
      fs.subvolumes.IsReachedAt s.path resolved ∨
        ∃ above m, fs.subvolumes.mountedAncestor? id = some (above, m) ∧
          BreaksOffIn above.path s.path) ∧
    ∀ id s above m, fs.subvolumes.get? id = some s →
      fs.subvolumes.mountedAncestor? id = some (above, m) →
      (¬ IsAtOrAbove above.path s.path → ¬ BreaksOffIn above.path s.path →
        fs.subvolumes.mountedPath? id = none) ∧
      ∀ front name tail below, segments above.path = front ++ [name] →
        segments s.path = front ++ (name ++ tail) :: below → tail ≠ [] →
        fs.subvolumes.mountedPath? id = some (m.path.join (relativeText (tail :: below))) := by
  have hnormal := hfs.consistent.normal_paths
  refine ⟨fun path resolved => isReachedAt_of_childPath hnormal,
    fun path above m h => ⟨childPath_of_astray hnormal h, ?_⟩,
    fun id s resolved hs => isReachedAt_of_mountedPath? hnormal hs,
    fun id s above m hs h => ⟨mountedPath?_of_astray hnormal hs h, ?_⟩⟩
  · intro front name tail below
    exact childPath_of_breaksOff hnormal h
  · intro front name tail below
    exact mountedPath?_of_breaksOff hnormal hs h

/-- A mounted subvolume, one in it, and two beside it that are stated to be in it, of which one has
a name that goes on where the name of the mounted one ends. -/
theorem isReachedAt_unless_breaksOff_stale :
    let listing : List Subvolume :=
      [.ofListed 257 "/data" (some 5), .ofListed 258 "/data/x" (some 257),
        .ofListed 259 "/database" (some 257), .ofListed 260 "/other" (some 257)]
    let m : Mountpoint := ⟨⟨"/srv/data/"⟩, ⟨"/dev/sda"⟩, 257, "/data"⟩
    let fs := ((Filesystem.new "1111" none [⟨"/dev/sda"⟩]).updateSubvolumes listing).updateMountpoints
      [m]
    fs.Reachable ∧
      fs.subvolumes.childPath "data/x" = .ok ⟨"/srv/data/x"⟩ ∧
      fs.subvolumes.IsReachedAt (normalize "data/x") ⟨"/srv/data/x"⟩ ∧
      fs.subvolumes.mountedPath? 258 = some ⟨"/srv/data/x"⟩ ∧
      fs.subvolumes.IsReachedAt "/data/x" ⟨"/srv/data/x"⟩ ∧
      fs.subvolumes.childPath "/other" = .error (.pathMismatch "/data" "/other") ∧
      fs.subvolumes.mountedPath? 260 = none ∧
      fs.subvolumes.childPath "/database" = .ok ⟨"/srv/data/base"⟩ ∧
      fs.subvolumes.mountedPath? 259 = some ⟨"/srv/data/base"⟩ := by
  intro listing m fs
  have hfs : fs.Reachable := reachable_of_listing _ _ _ (by decide) _
  obtain ⟨hchild, hentrance, hmounted, hancestor⟩ := isReachedAt_unless_breaksOff fs hfs
  let data : Subvolume := ⟨257, "/data", some 5, [m]⟩
  have hbelow : ¬ BreaksOffIn "/data" "/data/x" := fun h =>
    ((breaksOffIn_iff (by decide) (by decide)).1 h).2 (by decide)
  have hother : ¬ BreaksOffIn "/data" "/other" := fun h =>
    absurd ((breaksOffIn_iff (by decide) (by decide)).1 h).1 (by decide)
  have hbase : m.path.join (relativeText ["base".toList]) = ⟨"/srv/data/base"⟩ := by decide
  have hresolved : fs.subvolumes.childPath "data/x" = .ok ⟨"/srv/data/x"⟩ := by decide
  have hpath : fs.subvolumes.mountedPath? 258 = some ⟨"/srv/data/x"⟩ := by decide
  refine ⟨hfs, hresolved, ?_, hpath, ?_, ?_, ?_, ?_, ?_⟩
  · refine (hchild "data/x" _ hresolved).resolve_right ?_
    rintro ⟨above, m', h, hbreaks⟩
    have hfound : fs.subvolumes.entrance? "data/x" = some (data, m) := by decide
    obtain ⟨rfl, rfl⟩ := Prod.mk.inj (Option.some.inj (h.symm.trans hfound))
    exact hbelow hbreaks
  · refine (hmounted 258 ⟨258, "/data/x", some 257, []⟩ _ (by decide) hpath).resolve_right ?_
    rintro ⟨above, m', h, hbreaks⟩
    have hfound : fs.subvolumes.mountedAncestor? 258 = some (data, m) := by decide
    obtain ⟨rfl, rfl⟩ := Prod.mk.inj (Option.some.inj (h.symm.trans hfound))
    exact hbelow hbreaks
  · exact (hentrance "/other" data m (by decide)).1 (by decide) hother
  · exact (hancestor 260 ⟨260, "/other", some 257, []⟩ data m (by decide) (by decide)).1 (by decide)
      hother
  · rw [← hbase]
    exact (hentrance "/database" data m (by decide)).2 [] "data".toList "base".toList []
      (by decide) (by decide) (by decide)
  · rw [← hbase]
    exact (hancestor 259 ⟨259, "/database", some 257, []⟩ data m (by decide) (by decide)).2 []
      "data".toList "base".toList [] (by decide) (by decide) (by decide)

/-- A subvolume beside a mounted one, whose name goes on where that one's ends and which is stated to
be in it, is resolved to a place in the mounted one. -/
theorem not_isReachedAt_of_extended_name :
    let listing : List Subvolume :=
      [.ofListed 257 "/data" (some 5), .ofListed 258 "/database" (some 257)]
    let m : Mountpoint := ⟨⟨"/srv/data"⟩, ⟨"/dev/sda"⟩, 257, "/data"⟩
    let fs := ((Filesystem.new "1111" none [⟨"/dev/sda"⟩]).updateSubvolumes listing).updateMountpoints
      [m]
    fs.Reachable ∧
      fs.subvolumes.childPath "/database" = .ok ⟨"/srv/data/base"⟩ ∧
      fs.subvolumes.mountedPath? 258 = some ⟨"/srv/data/base"⟩ ∧
      ¬ fs.subvolumes.IsReachedAt (normalize "/database") ⟨"/srv/data/base"⟩ ∧
      fs.subvolumes.entrance? "/database" = some (⟨257, "/data", some 5, [m]⟩, m) ∧
      ¬ IsAtOrAbove "/data" (normalize "/database") := by
  intro listing m fs
  exact ⟨reachable_of_listing _ _ _ (by decide) _, by decide, by decide, by decide, by decide,
    by decide⟩

end Filesystem

end BtrfsTopology
