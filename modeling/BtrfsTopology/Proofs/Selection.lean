import BtrfsTopology.Proofs.RegistryCache
import Mathlib.Data.List.Nodup
import Mathlib.Data.String.Basic

/-!
# Selecting filesystems

A filesystem is selected among those that a discovery found. The links of a device that is asked for
are followed first; the devices of the filesystems keep the names under which they were listed. So a
device selects its filesystem if the listing has the name that its links lead to, and need not if it
was listed as a link.

## Main definitions

* `Criteria.resolved` — the criteria with the links of the device followed
* `FilesystemMap.IsKnown` — what a registry can know

## Main results

* `Registry.isKnown_of_discoverAll` — what a query looks through
* `Registry.outcome_find`, `Registry.outcome_findByDevice` — a selection among what is known
* `Registry.select_cases` — what criteria select among known filesystems
* `Registry.selects_by_resolved_device` — what a device selects
-/

namespace BtrfsTopology

variable {τ : Type} {host : Dialogue.Host τ} {state : τ}

/-- The criteria with the links of the device followed. -/
def Criteria.resolved (c : Criteria) (host : Dialogue.Host τ) (state : τ) : Criteria :=
  { c with device := c.device.map fun device => (host (.resolveDevice device) state).1 }

/-! ## Known filesystems -/

theorem Query.yields_loadAll_isAscending {mountpoints : List Mountpoint}
    {listed : List ListedFilesystem} {loaded : FilesystemMap} (h : loaded.IsAscending) :
    (Query.loadAll mountpoints listed loaded).Yields OrderedMap.IsAscending := by
  induction listed generalizing loaded with
  | nil => exact yields_pure h
  | cons first rest ih =>
    exact (yields_true (Query.load mountpoints first)).bind fun fs _ => ih (h.insert fs.uuid fs)

/-- The filesystems that a discovery finds are in ascending order of their identities. -/
theorem Query.yields_discover_isAscending : Query.discover.Yields OrderedMap.IsAscending := by
  refine (yields_true Query.filesystems).bind fun listed _ => ?_
  refine (yields_true Query.mounts).bind fun mountpoints _ => ?_
  exact yields_loadAll_isAscending OrderedMap.isAscending_empty

namespace FilesystemMap

/-- What a registry can know: filesystems in the order of the identities that they stand under, each
of which came about from a discovery. -/
structure IsKnown (known : FilesystemMap) : Prop where
  own_keys : known.HasOwnKeys
  ascending : known.IsAscending
  reachable : ∀ fs ∈ known.values, fs.Reachable

variable {known later : FilesystemMap}

theorem IsKnown.map_uuid_values (h : known.IsKnown) :
    known.values.map Filesystem.uuid = known.keys := by
  rw [OrderedMap.values, List.map_map]
  exact List.map_congr_left h.own_keys

/-- Filesystems are known in the order of their identities. -/
theorem IsKnown.uuids_ascending (h : known.IsKnown) :
    known.values.Pairwise fun fs other => fs.uuid < other.uuid := by
  rw [← List.pairwise_map (f := Filesystem.uuid), h.map_uuid_values]
  exact h.ascending

/-- No filesystem is known twice. -/
theorem IsKnown.nodup_values (h : known.IsKnown) : known.values.Nodup := by
  refine List.Nodup.of_map Filesystem.uuid ?_
  rw [h.map_uuid_values]
  exact h.ascending.imp ne_of_lt

/-- A known filesystem is found again under its identity. -/
theorem IsKnown.get?_uuid {fs : Filesystem} (h : known.IsKnown) (hfs : fs ∈ known.values) :
    known.get? fs.uuid = some fs := by
  obtain ⟨uuid, hentry⟩ := OrderedMap.mem_values_iff.1 hfs
  have huuid : fs.uuid = uuid := h.own_keys _ hentry
  rw [huuid]
  exact h.ascending.get?_eq_some_iff.2 hentry

/-- A property that one known filesystem has alone leaves that one. -/
theorem IsKnown.filter_eq_singleton {fs : Filesystem} {p : Filesystem → Bool} (h : known.IsKnown)
    (hfs : fs ∈ known.values) (hp : p fs) (hunique : ∀ other ∈ known.values, p other → other = fs) :
    known.values.filter p = [fs] := by
  -- Without repetitions it is enough to have the same members.
  refine List.perm_singleton.1 ?_
  refine (List.perm_ext_iff_of_nodup (h.nodup_values.filter p) (List.nodup_singleton fs)).2 ?_
  intro other
  rw [List.mem_filter, List.mem_singleton]
  exact ⟨fun ⟨hother, hpother⟩ => hunique other hother hpother, fun heq => heq ▸ ⟨hfs, hp⟩⟩

theorem isKnown_of_discover (h : (Query.discover.outcome host state).value = .ok known) :
    known.IsKnown where
  own_keys := Query.yields_discover_hasOwnKeys _ _ _ _ h
  ascending := Query.yields_discover_isAscending _ _ _ _ h
  reachable := by
    intro fs hfs
    obtain ⟨key, hentry⟩ := OrderedMap.mem_values_iff.1 hfs
    exact ⟨fs, .discovered h hentry, .refl⟩

theorem IsKnown.evolves (h : known.IsKnown) (hevolves : known.Evolves later)
    (hown : later.HasOwnKeys) : later.IsKnown where
  own_keys := hown
  ascending := by
    rw [OrderedMap.IsAscending, hevolves.1]
    exact h.ascending
  reachable := by
    intro fs' hfs'
    have hascending : later.IsAscending := by
      rw [OrderedMap.IsAscending, hevolves.1]
      exact h.ascending
    obtain ⟨uuid, hentry⟩ := OrderedMap.mem_values_iff.1 hfs'
    obtain ⟨fs, hfs, hsteps⟩ := hevolves.2 uuid fs' (hascending.get?_eq_some_iff.2 hentry)
    obtain ⟨origin, horigin, hrun⟩ :=
      h.reachable fs (OrderedMap.mem_values_iff.2 ⟨uuid, OrderedMap.mem_entries_of_get? hfs⟩)
    exact ⟨origin, horigin, hrun.trans hsteps⟩

end FilesystemMap

namespace Registry

variable {registry : Registry} {found : FilesystemMap} {c : Criteria} {fs : Filesystem}

/-- What is known along a run on a new registry. -/
theorem isKnown_of_run {accesses : List Access} {known : FilesystemMap}
    (h : (run host accesses (.notLoaded, state)).1 = .loaded known) : known.IsKnown := by
  obtain ⟨before, access, after, found, rfl, hafter, hfinds⟩ :=
    exists_findsAt (isLoaded_iff_exists.2 ⟨known, h⟩)
  obtain ⟨later, hlater, hevolves, hown, -⟩ := hfinds.exists_run hafter
  obtain rfl := Registry.loaded.inj (hlater.symm.trans h)
  exact (FilesystemMap.isKnown_of_discover hfinds.discovery).evolves hevolves hown

/-- What a query looks through along a run on a new registry. -/
theorem isKnown_of_discoverAll {accesses : List Access} {state' : τ}
    (h : (discoverAll.outcome (run host accesses (.notLoaded, state)).1 host state').value.1 =
      .ok found) : found.IsKnown := by
  rcases hreached : (run host accesses (.notLoaded, state)).1 with _ | known
  · rw [hreached, outcome_discoverAll_of_notLoaded] at h
    exact FilesystemMap.isKnown_of_discover h
  · rw [hreached, outcome_discoverAll_of_loaded] at h
    exact Except.ok.inj h ▸ isKnown_of_run hreached

/-! ## What criteria select -/

/-- Criteria select the one filesystem that they admit, which is found again under its identity, or
they fail as they admit none or several. -/
theorem select_cases (hfound : found.IsKnown) (c : Criteria) :
    (∃ fs, found.values.filter c.admits = [fs] ∧ select found c = .ok fs) ∨
    (found.values.filter c.admits = [] ∧ select found c = .error (.noMatch c.describe)) ∨
    ∃ first second rest, found.values.filter c.admits = first :: second :: rest ∧
      select found c = .error (.ambiguousMatch (rest.length + 2) c.describe) := by
  rcases hfilter : found.values.filter c.admits with _ | ⟨fs, _ | ⟨second, rest⟩⟩
  · refine .inr (.inl ⟨rfl, ?_⟩)
    rw [select, hfilter]
    rfl
  · have hfs : fs ∈ found.values :=
      (List.mem_filter.1 (hfilter ▸ List.mem_singleton_self fs)).1
    refine .inl ⟨fs, rfl, ?_⟩
    rw [select, hfilter]
    simp only [List.map_cons, List.map_nil, hfound.get?_uuid hfs]
  · refine .inr (.inr ⟨fs, second, rest, rfl, ?_⟩)
    rw [select, hfilter]
    simp only [List.map_cons, List.length_cons, List.length_map]

theorem select_eq_ok_iff (hfound : found.IsKnown) :
    select found c = .ok fs ↔ found.values.filter c.admits = [fs] := by
  obtain ⟨only, hfilter, hselect⟩ | ⟨hfilter, hselect⟩ | ⟨first, second, rest, hfilter, hselect⟩ :=
    select_cases hfound c <;> simp [hfilter, hselect]

theorem select_eq_noMatch_iff (hfound : found.IsKnown) {text : String} :
    select found c = .error (.noMatch text) ↔
      found.values.filter c.admits = [] ∧ text = c.describe := by
  obtain ⟨only, hfilter, hselect⟩ | ⟨hfilter, hselect⟩ | ⟨first, second, rest, hfilter, hselect⟩ :=
    select_cases hfound c <;> simp [hfilter, hselect, eq_comm]

theorem exists_select_eq_noMatch_iff (hfound : found.IsKnown) :
    (∃ text, select found c = .error (.noMatch text)) ↔
      ∀ fs ∈ found.values, c.admits fs = false := by
  simp only [select_eq_noMatch_iff hfound, exists_and_left, exists_eq, and_true,
    List.filter_eq_nil_iff, Bool.not_eq_true]

theorem select_eq_ambiguousMatch_iff (hfound : found.IsKnown) {count : Nat} {text : String} :
    select found c = .error (.ambiguousMatch count text) ↔
      count = (found.values.filter c.admits).length ∧ 2 ≤ count ∧ text = c.describe := by
  obtain ⟨only, hfilter, hselect⟩ | ⟨hfilter, hselect⟩ | ⟨first, second, rest, hfilter, hselect⟩ :=
    select_cases hfound c
  · simp +contextual [hfilter, hselect]
  · simp +contextual [hfilter, hselect]
  · simp only [hfilter, hselect, Except.error.injEq, TopologyError.ambiguousMatch.injEq,
      List.length_cons]
    constructor
    · rintro ⟨rfl, rfl⟩
      exact ⟨rfl, by omega, rfl⟩
    · rintro ⟨rfl, -, rfl⟩
      exact ⟨rfl, rfl⟩

/-! ## Selections -/

theorem outcome_resolveCriteria :
    (resolveCriteria c).outcome host state =
      ⟨.ok (c.resolved host state), (Access.find c).linkRequests,
        (Access.find c).followLinks host state⟩ := by
  obtain ⟨uuid, label, device⟩ := c
  cases device <;> rfl

theorem find_eq :
    find c = (do
      let resolved ← Update.ofQuery (resolveCriteria c)
      let found ← discoverAll
      Update.ofQuery (Query.ofExcept (select found resolved))) :=
  rfl

theorem findByDevice_eq {device : VfsPath} :
    findByDevice device = (do
      let resolved ← Update.ofQuery (Query.resolveDevice device)
      let found ← discoverAll
      pure (found.values.find? fun fs => fs.hasDevice resolved)) :=
  rfl

/-- Criteria select among what is known once their links have been followed. -/
theorem outcome_find :
    (find c).outcome registry host state =
      let known := discoverAll.outcome registry host ((Access.find c).followLinks host state)
      ⟨(known.value.1.bind fun found => select found (c.resolved host state), known.value.2),
        (Access.find c).linkRequests ++ known.requests, known.host⟩ := by
  have hresolved : (Update.ofQuery (resolveCriteria c)).outcome registry host state = _ :=
    Update.outcome_ofQuery (resolveCriteria c)
  rw [outcome_resolveCriteria] at hresolved
  rw [find_eq, Update.outcome_bind_ok hresolved]
  rcases hknown : discoverAll.outcome registry host ((Access.find c).followLinks host state) with
    ⟨⟨result, later⟩, requests, state'⟩
  cases result with
  | error e => rw [Update.outcome_bind_error hknown]; rfl
  | ok found =>
    rw [Update.outcome_bind_ok hknown, Update.outcome_ofQuery]
    exact congrArg (Dialogue.Outcome.mk _ · _) (congrArg _ (List.append_nil requests))

/-- A device selects the first of the known filesystems that has it once its links have been
followed. -/
theorem outcome_findByDevice {device : VfsPath} :
    (findByDevice device).outcome registry host state =
      let resolved := host (.resolveDevice device) state
      let known := discoverAll.outcome registry host resolved.2
      ⟨(known.value.1.map fun found => found.values.find? fun fs => fs.hasDevice resolved.1,
        known.value.2), .resolveDevice device :: known.requests, known.host⟩ := by
  have hresolved : (Update.ofQuery (Query.resolveDevice device)).outcome registry host state =
      ⟨(.ok (host (.resolveDevice device) state).1, registry), [.resolveDevice device],
        (host (.resolveDevice device) state).2⟩ :=
    rfl
  rw [findByDevice_eq, Update.outcome_bind_ok hresolved]
  rcases hknown : discoverAll.outcome registry host (host (.resolveDevice device) state).2 with
    ⟨⟨result, later⟩, requests, state'⟩
  dsimp only
  rw [hknown]
  cases result with
  | error e =>
    rw [Update.outcome_bind_error hknown]
    rfl
  | ok found =>
    rw [Update.outcome_bind_ok hknown, Update.outcome_pure]
    exact congrArg (Dialogue.Outcome.mk _ · state') (congrArg _ (List.append_nil requests))

/-! ## Devices -/

/-- A device alone admits the filesystems that have it. -/
theorem admits_device (device : VfsPath) :
    ({ device := some device } : Criteria).admits = fun fs => fs.hasDevice device := by
  funext fs
  simp [Criteria.admits]

/-- In every state that a run on a new registry leads to, a device of a filesystem is looked for
under the name that its links lead to, among the names that were listed. Nothing is found by the
device, and nothing matches it, just if no filesystem has that name. The device's own filesystem has
it if the links lead nowhere else. If it has, something is found and something matches, and if it
alone has, it is found and it matches. -/
theorem selects_by_resolved_device (host : Dialogue.Host τ) (state : τ) (accesses : List Access)
    (device : VfsPath) (found : FilesystemMap) (fs : Filesystem)
    (hfound : (discoverAll.outcome (run host accesses (.notLoaded, state)).1 host
      (host (.resolveDevice device) (run host accesses (.notLoaded, state)).2).2).value.1 =
        .ok found)
    (hfs : fs ∈ found.values) (hdevice : device ∈ fs.devices.toList) :
    let reached := run host accesses (.notLoaded, state)
    let resolved : VfsPath := (host (.resolveDevice device) reached.2).1
    let byDevice := ((findByDevice device).outcome reached.1 host reached.2).value.1
    let byCriteria := ((find { device := some device }).outcome reached.1 host reached.2).value.1
    (byDevice = .ok none ↔ ∀ known ∈ found.values, known.hasDevice resolved = false) ∧
    ((∃ text, byCriteria = .error (.noMatch text)) ↔
      ∀ known ∈ found.values, known.hasDevice resolved = false) ∧
    (resolved.sameAs device → fs.hasDevice resolved) ∧
    (fs.hasDevice resolved →
      byDevice ≠ .ok none ∧ (∀ text, byCriteria ≠ .error (.noMatch text)) ∧
      ((∀ other ∈ found.values, other.hasDevice resolved → other = fs) →
        byDevice = .ok (some fs) ∧ byCriteria = .ok fs)) := by
  intro reached resolved byDevice byCriteria
  have hknown : found.IsKnown := isKnown_of_discoverAll hfound
  have hbyDevice : byDevice = .ok (found.values.find? fun fs => fs.hasDevice resolved) := by
    simp only [byDevice]
    rw [outcome_findByDevice]
    exact congrArg (Except.map _) hfound
  have hbyCriteria : byCriteria = select found { device := some resolved } := by
    simp only [byCriteria]
    rw [outcome_find]
    exact congrArg (Except.bind · fun found => select found { device := some resolved }) hfound
  have habsent : byDevice = .ok none ↔
      ∀ known ∈ found.values, known.hasDevice resolved = false := by
    rw [hbyDevice, Except.ok.injEq, List.find?_eq_none]
    simp only [Bool.not_eq_true]
  have hnoMatch : (∃ text, byCriteria = .error (.noMatch text)) ↔
      ∀ known ∈ found.values, known.hasDevice resolved = false := by
    rw [hbyCriteria, exists_select_eq_noMatch_iff hknown, admits_device]
  -- Both look for the same name, so what is left is where that is among the listed ones.
  refine ⟨habsent, hnoMatch, fun hsame => ?_, fun hhas => ⟨fun h => ?_, fun text h => ?_, ?_⟩⟩
  · rw [Filesystem.hasDevice, (hknown.reachable fs hfs).consistent.devices_keyed.hasDevice_iff]
    exact ⟨device, hdevice, decide_eq_true (of_decide_eq_true hsame).symm⟩
  · simp [habsent.1 h fs hfs] at hhas
  · simp [hnoMatch.1 ⟨text, h⟩ fs hfs] at hhas
  · intro hunique
    have hfilter : found.values.filter (fun fs => fs.hasDevice resolved) = [fs] :=
      hknown.filter_eq_singleton hfs hhas hunique
    refine ⟨?_, ?_⟩
    · rw [hbyDevice, ← List.head?_filter, hfilter]
      rfl
    · rw [hbyCriteria, select_eq_ok_iff hknown, admits_device]
      exact hfilter

/-- A host that lists filesystems of which none is mounted, and on which one device is a link. -/
def linkingHost (listing : String) (link target : VfsPath) : Dialogue.Host Unit
  | .inspect .filesystems, _ => (.ok ⟨"btrfs", 0, listing, ""⟩, ())
  | .inspect _, _ => (.ok ⟨"findmnt", 1, "", ""⟩, ())
  | .mutate _, _ => (.ok (), ())
  | .resolveDevice device, _ => (if device = link then target else device, ())

/-- A filesystem has two devices of which one is a link to the other. -/
theorem selects_by_resolved_device_linked :
    let listing := "Label: none  uuid: 1111\ndevid 1 path /dev/dm-0\ndevid 2 path /dev/mapper/x\n"
    let device : VfsPath := ⟨"/dev/mapper/x"⟩
    let host := linkingHost listing device ⟨"/dev/dm-0"⟩
    let fs := Filesystem.new "1111" none [⟨"/dev/dm-0"⟩, device]
    ((findByDevice device).outcome .notLoaded host ()).value.1 = .ok (some fs) ∧
      ((find { device := some device }).outcome .notLoaded host ()).value.1 = .ok fs := by
  intro listing device host fs
  obtain ⟨-, -, -, hselects⟩ := selects_by_resolved_device host () [] device ⟨[("1111", fs)]⟩ fs
    (by decide +kernel) (by decide +kernel) (by decide +kernel)
  obtain ⟨-, -, hunique⟩ := hselects (by decide +kernel)
  exact hunique fun other hother _ => List.mem_singleton.1 hother

/-- A device that was listed as a link selects nothing, though its filesystem was found with it. -/
theorem not_selects_by_listed_link :
    let device : VfsPath := ⟨"/dev/mapper/x"⟩
    let host :=
      linkingHost "Label: none  uuid: 1111\ndevid 1 path /dev/mapper/x\n" device ⟨"/dev/dm-0"⟩
    let follow (other : VfsPath) : VfsPath := (host (.resolveDevice other) ()).1
    let fs := Filesystem.new "1111" none [device]
    (∀ other, follow (follow other) = follow other) ∧
      (Query.discover.outcome host ()).value = .ok ⟨[("1111", fs)]⟩ ∧
      device ∈ fs.devices.toList ∧
      ((findByDevice device).outcome .notLoaded host ()).value.1 = .ok none ∧
      ((find { device := some device }).outcome .notLoaded host ()).value.1 =
        .error (.noMatch "uuid=- label=- device=/dev/dm-0") := by
  intro device host follow fs
  refine ⟨fun other => ?_, by decide +kernel, by decide +kernel, by decide +kernel,
    by decide +kernel⟩
  by_cases hother : other = device
  · rw [hother]
    rfl
  · have hstays : follow other = other := if_neg hother
    rw [hstays, hstays]

end Registry

end BtrfsTopology
