import BtrfsTopology.Proofs.Selection

/-!
# Selections are exact

What criteria ask for is said here without the code that tests it: an identity, a label, and a device
that is the same path as one of the filesystem's own. A selection among known filesystems succeeds
just when one of them has all that is asked for; otherwise it fails and says how many have. A search
by device looks for the same filesystems, but stops at the first one, which has the least identity.

## Main definitions

* `Criteria.Matches` — a filesystem has all that is asked for
* `Criteria.Narrows` — criteria ask for all that others ask for
* `FilesystemMap.matching` — the known filesystems that have all that is asked for

## Main results

* `FilesystemMap.IsKnown.filter_admits` — these are the ones that are tested to have it
* `Registry.select_of_narrows` — criteria that ask for more select the same filesystem or none
* `Registry.find?_hasDevice` — a search by device stops at the first of the matches
-/

namespace BtrfsTopology

/-! ## What is asked for -/

namespace Criteria

/-- A filesystem has all that is asked for. -/
structure Matches (c : Criteria) (fs : Filesystem) : Prop where
  uuid : ∀ uuid ∈ c.uuid, fs.uuid = uuid
  label : ∀ label ∈ c.label, fs.label = some label
  device : ∀ device ∈ c.device, ∃ own ∈ fs.devices.toList, own.sameAs device

instance (c : Criteria) : DecidablePred c.Matches := fun fs =>
  decidable_of_iff
    ((∀ uuid ∈ c.uuid, fs.uuid = uuid) ∧ (∀ label ∈ c.label, fs.label = some label) ∧
      ∀ device ∈ c.device, ∃ own ∈ fs.devices.toList, own.sameAs device)
    ⟨fun ⟨uuid, label, device⟩ => ⟨uuid, label, device⟩, fun h => ⟨h.uuid, h.label, h.device⟩⟩

/-- Criteria ask for all that others ask for. -/
structure Narrows (c other : Criteria) : Prop where
  uuid : ∀ uuid ∈ other.uuid, c.uuid = some uuid
  label : ∀ label ∈ other.label, c.label = some label
  device : ∀ device ∈ other.device, c.device = some device

variable {c other : Criteria} {fs : Filesystem}

theorem Narrows.matches (h : c.Narrows other) (hfs : c.Matches fs) : other.Matches fs where
  uuid uuid huuid := hfs.uuid uuid (h.uuid uuid huuid)
  label label hlabel := hfs.label label (h.label label hlabel)
  device device hdevice := hfs.device device (h.device device hdevice)

/-- Narrower criteria are narrower when their links have been followed, if those of the device that
both ask for lead to the same. -/
theorem Narrows.resolved {τ : Type} {host : Dialogue.Host τ} {state state' : τ}
    (h : c.Narrows other) (hlinks : ∀ device ∈ other.device,
      (host (.resolveDevice device) state').1 = (host (.resolveDevice device) state).1) :
    (c.resolved host state').Narrows (other.resolved host state) where
  uuid := h.uuid
  label := h.label
  device := by
    intro target htarget
    obtain ⟨device, hdevice, rfl⟩ := Option.map_eq_some_iff.1 htarget
    rw [← hlinks device hdevice]
    exact congrArg (Option.map _) (h.device device hdevice)

/-- Criteria are tested for what they ask for, as far as devices stand under their components. -/
theorem admits_iff (h : fs.devices.IsKeyed) : c.admits fs ↔ c.Matches fs := by
  have hdevice (device : VfsPath) :
      fs.hasDevice device ↔ ∃ own ∈ fs.devices.toList, own.sameAs device := h.hasDevice_iff
  simp only [admits, Bool.and_eq_true, Option.all_eq_true, decide_eq_true_eq, hdevice]
  exact ⟨fun ⟨⟨uuid, label⟩, device⟩ => ⟨uuid, label, device⟩,
    fun h => ⟨⟨h.uuid, h.label⟩, h.device⟩⟩

end Criteria

/-! ## Known filesystems -/

namespace FilesystemMap

/-- The known filesystems that have all that is asked for. -/
def matching (known : FilesystemMap) (c : Criteria) : List Filesystem :=
  known.values.filter fun fs => c.Matches fs

variable {known : FilesystemMap} {c other : Criteria} {fs : Filesystem}

theorem matching_of_narrows (h : c.Narrows other) :
    known.matching c = (known.matching other).filter fun fs => c.Matches fs := by
  rw [matching, matching, List.filter_filter]
  refine List.filter_congr fun fs _ => ?_
  rw [Bool.eq_iff_iff, Bool.and_eq_true, decide_eq_true_eq, decide_eq_true_eq]
  exact ⟨fun hfs => ⟨hfs, h.matches hfs⟩, And.left⟩

theorem IsKnown.filter_admits (h : known.IsKnown) (c : Criteria) :
    known.values.filter c.admits = known.matching c := by
  refine List.filter_congr fun fs hfs => ?_
  rw [Bool.eq_iff_iff, decide_eq_true_eq]
  exact Criteria.admits_iff (h.reachable fs hfs).consistent.devices_keyed

/-- Of several filesystems that match, the first has the least identity. -/
theorem IsKnown.least_of_matching_eq_cons {rest : List Filesystem} (h : known.IsKnown)
    (hmatching : known.matching c = fs :: rest) :
    ∀ other ∈ known.matching c, other ≠ fs → fs.uuid < other.uuid := by
  have hascending := h.uuids_ascending.filter fun fs => decide (c.Matches fs)
  rw [← matching, hmatching, List.pairwise_cons] at hascending
  intro other hother hne
  rw [hmatching] at hother
  exact hascending.1 other ((List.mem_cons.1 hother).resolve_left hne)

end FilesystemMap

namespace Registry

variable {τ : Type} {host : Dialogue.Host τ} {state : τ} {known : FilesystemMap}
  {c other : Criteria} {fs : Filesystem}

/-! ## Selections -/

theorem value_find_of_loaded :
    ((find c).outcome (.loaded known) host state).value.1 =
      select known (c.resolved host state) := by
  rw [outcome_find, outcome_discoverAll_of_loaded]
  rfl

theorem value_findByDevice_of_loaded {device : VfsPath} :
    ((findByDevice device).outcome (.loaded known) host state).value.1 =
      .ok (known.values.find? fun fs => fs.hasDevice (host (.resolveDevice device) state).1) := by
  rw [outcome_findByDevice]
  rfl

/-- Criteria that ask for more select the same filesystem or none. -/
theorem select_of_narrows (hknown : known.IsKnown) (h : c.Narrows other)
    (hfs : select known other = .ok fs) :
    select known c = .ok fs ∨ ∃ text, select known c = .error (.noMatch text) := by
  rw [select_eq_ok_iff hknown, hknown.filter_admits] at hfs
  -- What matches now is among what matched before, and that was one.
  have hfilter : known.values.filter c.admits = if c.Matches fs then [fs] else [] := by
    rw [hknown.filter_admits, FilesystemMap.matching_of_narrows h, hfs, List.filter_singleton]
    simp only [Bool.cond_decide]
  split at hfilter
  · exact .inl ((select_eq_ok_iff hknown).2 hfilter)
  · exact .inr ⟨c.describe, (select_eq_noMatch_iff hknown).2 ⟨hfilter, rfl⟩⟩

/-- A search by device stops at the first of the filesystems that match it. -/
theorem find?_hasDevice (hknown : known.IsKnown) (device : VfsPath) :
    (known.values.find? fun fs => fs.hasDevice device) =
      (known.matching { device := some device }).head? := by
  rw [← hknown.filter_admits, admits_device, List.head?_filter]

/-- What is found by a device, against what the device alone selects. It is nothing just when
nothing matches, what is selected when something is, and of several matches the one with the least
identity. -/
theorem findByDevice_of_find (hknown : known.IsKnown) (host : Dialogue.Host τ) (state : τ)
    (device : VfsPath) :
    let alone : Criteria := { device := some device }
    let byDevice := ((findByDevice device).outcome (.loaded known) host state).value.1
    let selected := ((find alone).outcome (.loaded known) host state).value.1
    (byDevice = .ok none ↔ ∃ text, selected = .error (.noMatch text)) ∧
    (∀ fs, selected = .ok fs → byDevice = .ok (some fs)) ∧
    ∀ count text, selected = .error (.ambiguousMatch count text) →
      ∃ fs ∈ known.matching (alone.resolved host state), byDevice = .ok (some fs) ∧
        ∀ other ∈ known.matching (alone.resolved host state), other ≠ fs →
          fs.uuid < other.uuid := by
  intro alone byDevice selected
  let target : VfsPath := (host (.resolveDevice device) state).1
  have hbyDevice : byDevice = .ok (known.values.find? fun fs => fs.hasDevice target) :=
    value_findByDevice_of_loaded
  have hselected : selected = select known (alone.resolved host state) := value_find_of_loaded
  have hfirst : (known.values.find? fun fs => fs.hasDevice target) =
      (known.matching (alone.resolved host state)).head? := find?_hasDevice hknown target
  rw [hselected, hbyDevice, hfirst]
  refine ⟨?_, fun fs hfs => ?_, fun count text hseveral => ?_⟩
  · rw [Except.ok.injEq, List.head?_eq_none_iff, ← hknown.filter_admits]
    exact ⟨fun hnil => ⟨_, (select_eq_noMatch_iff hknown).2 ⟨hnil, rfl⟩⟩,
      fun ⟨_, hnoMatch⟩ => ((select_eq_noMatch_iff hknown).1 hnoMatch).1⟩
  · rw [select_eq_ok_iff hknown, hknown.filter_admits] at hfs
    rw [hfs, List.head?_singleton]
  · obtain ⟨hcount, htwo, -⟩ := (select_eq_ambiguousMatch_iff hknown).1 hseveral
    rw [hknown.filter_admits] at hcount
    obtain ⟨fs, rest, heq⟩ : ∃ fs rest, known.matching (alone.resolved host state) = fs :: rest := by
      refine List.exists_cons_of_ne_nil fun hnil => ?_
      rw [hcount, hnil] at htwo
      contradiction
    rw [heq, List.head?_cons, ← heq]
    exact ⟨fs, heq ▸ List.mem_cons_self, rfl, hknown.least_of_matching_eq_cons heq⟩

/-- Selections from a registry that has been loaded are exact, whatever was done with it and with
the filesystems in it before. Criteria select a filesystem just when it alone has all that is asked
for, and it is found again under its identity. They fail with the number of filesystems that have
it when there are several, and with no match when there is none. Criteria that ask for more select
the same filesystem or none, if links lead where they led. A search by device finds nothing just
when nothing matches the device, what the device selects when it selects something, and of several
matches the one with the least identity. -/
theorem selections_are_exact {σ : Type} (host₀ : Dialogue.Host σ) (state₀ : σ)
    (accesses : List Access) (known : FilesystemMap)
    (h : (run host₀ accesses (.notLoaded, state₀)).1 = .loaded known)
    (host : Dialogue.Host τ) (state : τ) :
    let found (c : Criteria) (state : τ) : Except TopologyError Filesystem :=
      ((find c).outcome (.loaded known) host state).value.1
    let matching (c : Criteria) : List Filesystem := known.matching (c.resolved host state)
    (∀ c fs, found c state = .ok fs ↔ matching c = [fs]) ∧
    (∀ fs ∈ known.values, known.get? fs.uuid = some fs) ∧
    (∀ c text, found c state = .error (.noMatch text) ↔
      matching c = [] ∧ text = (c.resolved host state).describe) ∧
    (∀ c count text, found c state = .error (.ambiguousMatch count text) ↔
      count = (matching c).length ∧ 2 ≤ count ∧ text = (c.resolved host state).describe) ∧
    (∀ c c' state' fs, c'.Narrows c →
      (∀ device ∈ c.device,
        (host (.resolveDevice device) state').1 = (host (.resolveDevice device) state).1) →
      found c state = .ok fs →
      found c' state' = .ok fs ∨ ∃ text, found c' state' = .error (.noMatch text)) ∧
    ∀ device,
      let byDevice := ((findByDevice device).outcome (.loaded known) host state).value.1
      let selected := found { device := some device } state
      (byDevice = .ok none ↔ ∃ text, selected = .error (.noMatch text)) ∧
      (∀ fs, selected = .ok fs → byDevice = .ok (some fs)) ∧
      ∀ count text, selected = .error (.ambiguousMatch count text) →
        ∃ fs ∈ matching { device := some device }, byDevice = .ok (some fs) ∧
          ∀ other ∈ matching { device := some device }, other ≠ fs → fs.uuid < other.uuid := by
  intro found matching
  have hknown : known.IsKnown := isKnown_of_run h
  have hfound (c : Criteria) (state : τ) : found c state = select known (c.resolved host state) :=
    value_find_of_loaded
  have hmatching (c : Criteria) :
      known.values.filter (c.resolved host state).admits = matching c := hknown.filter_admits _
  refine ⟨fun c fs => ?_, fun fs => hknown.get?_uuid, fun c text => ?_, fun c count text => ?_,
    fun c c' state' fs hnarrows hlinks hfs => ?_, findByDevice_of_find hknown host state⟩
  · rw [hfound, select_eq_ok_iff hknown, hmatching]
  · rw [hfound, select_eq_noMatch_iff hknown, hmatching]
  · rw [hfound, select_eq_ambiguousMatch_iff hknown, hmatching]
  · rw [hfound] at hfs ⊢
    exact select_of_narrows hknown (hnarrows.resolved hlinks) hfs

/-- Two filesystems with one label share a device, to which a link leads, and one of them has a
device of its own. -/
theorem selections_are_exact_shared :
    let listing :=
      "Label: 'DATA'  uuid: 2222\ndevid 1 path /dev/sda\nLabel: 'DATA'  uuid: 1111\n" ++
        "devid 1 path /dev/sda\ndevid 2 path /dev/sdb\nLabel: none  uuid: 3333\n"
    let first := Filesystem.new "1111" (some "DATA") [⟨"/dev/sda"⟩, ⟨"/dev/sdb"⟩]
    let second := Filesystem.new "2222" (some "DATA") [⟨"/dev/sda"⟩]
    let host := linkingHost listing ⟨"/dev/disk"⟩ ⟨"/dev/sda"⟩
    let registry := (run host [.discoverAll] (.notLoaded, ())).1
    let found (c : Criteria) : Except TopologyError Filesystem :=
      ((find c).outcome registry host ()).value.1
    registry = .loaded
        ⟨[("1111", first), ("2222", second), ("3333", Filesystem.new "3333" none [])]⟩ ∧
      found { label := some "DATA" } =
        .error (.ambiguousMatch 2 "uuid=- label=DATA device=-") ∧
      found { label := some "DATA", device := some ⟨"/dev/./sdb"⟩ } = .ok first ∧
      (found { uuid := some "2222", label := some "DATA", device := some ⟨"/dev/./sdb"⟩ } =
          .ok first ∨
        ∃ text, found { uuid := some "2222", label := some "DATA", device := some ⟨"/dev/./sdb"⟩ } =
          .error (.noMatch text)) ∧
      found { uuid := some "3333", label := some "DATA" } =
        .error (.noMatch "uuid=3333 label=DATA device=-") ∧
      found { device := some ⟨"/dev/disk"⟩ } =
        .error (.ambiguousMatch 2 "uuid=- label=- device=/dev/sda") ∧
      ∃ fs, ((findByDevice ⟨"/dev/disk"⟩).outcome registry host ()).value.1 = .ok (some fs) ∧
        (second ≠ fs → fs.uuid < "2222") := by
  intro listing first second host registry found
  have hregistry : registry = .loaded
      ⟨[("1111", first), ("2222", second), ("3333", Filesystem.new "3333" none [])]⟩ := by
    decide +kernel
  obtain ⟨hok, -, hnoMatch, hambiguous, hnarrows, hdevice⟩ :=
    selections_are_exact host () [.discoverAll] _ hregistry host ()
  simp only [found, hregistry]
  have hshared := (hambiguous { device := some ⟨"/dev/disk"⟩ } 2
    "uuid=- label=- device=/dev/sda").2 (by decide +kernel)
  obtain ⟨fs, -, hfs, hleast⟩ := (hdevice ⟨"/dev/disk"⟩).2.2 _ _ hshared
  have hselected := (hok { label := some "DATA", device := some ⟨"/dev/./sdb"⟩ } first).2
    (by decide +kernel)
  have hnarrower := hnarrows _
    { uuid := some "2222", label := some "DATA", device := some ⟨"/dev/./sdb"⟩ } () first
    ⟨by simp, by simp, by simp⟩ (fun _ _ => rfl) hselected
  exact ⟨trivial, (hambiguous _ _ _).2 (by decide +kernel), hselected, hnarrower,
    (hnoMatch _ _).2 (by decide +kernel), hshared, fs, hfs, hleast second (by decide +kernel)⟩

end Registry

end BtrfsTopology
