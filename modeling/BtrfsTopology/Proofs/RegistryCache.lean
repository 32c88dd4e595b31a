import BtrfsTopology.Proofs.Consistency
import BtrfsTopology.Registry.Basic

/-!
# The registry is discovered once

A registry that knows nothing discovers the filesystems with the first query and answers from what
it found until it is invalidated. A discovery that fails leaves nothing behind, so the next query
discovers anew. What is known at any time was found by one discovery, the only one that succeeded
since the last invalidation; later operations on a filesystem change it in its place.

## Main definitions

* `Registry.Access` — what can be done with a registry
* `Registry.run` — the registry and the host after a run of accesses
* `Registry.FindsAt` — at some place of a run a discovery was made and succeeded
* `FilesystemMap.Evolves` — filesystems came about from others by operations

## Main results

* `Registry.Access.outcome_of_loaded`, `Registry.Access.outcome_of_notLoaded` — one query
* `Registry.Access.exists_evolves`, `Registry.exists_run_evolves` — without an invalidation a
  registry stays loaded, with filesystems that came about from those it had
* `Registry.exists_findsAt`, `Registry.FindsAt.unique` — where what is known was found
-/

namespace BtrfsTopology

/-! ## Known filesystems -/

namespace FilesystemMap

/-- Every filesystem stands under its own identity. -/
def HasOwnKeys (known : FilesystemMap) : Prop :=
  ∀ entry ∈ known.entries, entry.2.uuid = entry.1

/-- The later filesystems are the known ones after operations in their place. -/
def Evolves (known later : FilesystemMap) : Prop :=
  later.keys = known.keys ∧ ∀ uuid fs', later.get? uuid = some fs' →
    ∃ fs, known.get? uuid = some fs ∧ Relation.ReflTransGen Filesystem.Step fs fs'

variable {known later : FilesystemMap}

theorem evolves_refl (known : FilesystemMap) : Evolves known known :=
  ⟨rfl, fun _ fs hfs => ⟨fs, hfs, .refl⟩⟩

theorem Evolves.trans {latest : FilesystemMap} (h : Evolves known later)
    (h' : Evolves later latest) : Evolves known latest := by
  refine ⟨h'.1.trans h.1, fun uuid fs'' hfs'' => ?_⟩
  obtain ⟨fs', hfs', hsteps'⟩ := h'.2 uuid fs'' hfs''
  obtain ⟨fs, hfs, hsteps⟩ := h.2 uuid fs' hfs'
  exact ⟨fs, hfs, hsteps.trans hsteps'⟩

section Adjust

variable {uuid : String} {fs fs' : Filesystem} (hfs : known.get? uuid = some fs)
  (hstep : Filesystem.Step fs fs')
include hfs hstep

theorem evolves_adjust : Evolves known (known.adjust (fun _ => fs') uuid) := by
  refine ⟨OrderedMap.keys_mapValues _ _, fun other made hmade => ?_⟩
  rw [OrderedMap.adjust, OrderedMap.get?_mapValues] at hmade
  obtain ⟨before, hbefore, heq⟩ := Option.map_eq_some_iff.1 hmade
  refine ⟨before, hbefore, ?_⟩
  by_cases hother : other = uuid
  · subst hother
    obtain rfl := Option.some.inj (hbefore.symm.trans hfs)
    rw [if_pos rfl] at heq
    exact heq ▸ .single hstep
  · rw [if_neg hother] at heq
    exact heq ▸ .refl

/-- No operation changes the identity of a filesystem, so it goes on standing under it. -/
theorem HasOwnKeys.adjust (h : known.HasOwnKeys) :
    HasOwnKeys (known.adjust (fun _ => fs') uuid) := by
  rintro ⟨other, made⟩ hmade
  obtain ⟨before, hbefore, heq⟩ := OrderedMap.mem_entries_mapValues.1 hmade
  by_cases hother : other = uuid
  · subst hother
    rw [if_pos rfl] at heq
    have hidentity := (Filesystem.isStable_identity fs.uuid fs.devices).step hstep ⟨rfl, rfl⟩
    exact heq ▸ hidentity.1.trans (h _ (OrderedMap.mem_entries_of_get? hfs))
  · rw [if_neg hother] at heq
    exact heq ▸ h _ hbefore

end Adjust

end FilesystemMap

/-- A filesystem is found under the identity that it has. -/
theorem Query.yields_loadAll_hasOwnKeys {mountpoints : List Mountpoint}
    {listed : List ListedFilesystem} {loaded : FilesystemMap} (h : loaded.HasOwnKeys) :
    (Query.loadAll mountpoints listed loaded).Yields FilesystemMap.HasOwnKeys := by
  induction listed generalizing loaded with
  | nil => exact yields_pure h
  | cons first rest ih =>
    exact (yields_true (Query.load mountpoints first)).bind fun fs _ =>
      ih (OrderedMap.forall_mem_entries_insert rfl h)

theorem Query.yields_discover_hasOwnKeys : Query.discover.Yields FilesystemMap.HasOwnKeys := by
  refine (yields_true Query.filesystems).bind fun listed _ => ?_
  refine (yields_true Query.mounts).bind fun mountpoints _ => ?_
  exact yields_loadAll_hasOwnKeys fun _ hentry => absurd hentry List.not_mem_nil

namespace Registry

theorem isLoaded_iff_exists {registry : Registry} :
    registry.isLoaded ↔ ∃ known, registry = .loaded known := by
  cases registry <;> simp [isLoaded]

theorem isLoaded_eq_false_iff {registry : Registry} :
    registry.isLoaded = false ↔ registry = .notLoaded := by
  cases registry <;> simp [isLoaded]

/-! ## Accesses -/

/-- What can be done with a registry. -/
inductive Access where
  | discoverAll
  | filesystems
  | get (uuid : String)
  | find (criteria : Criteria)
  | findByDevice (device : VfsPath)
  | invalidate
  /-- An operation on the filesystem with an identity. -/
  | within (uuid : String) (operation : Operation)

/-- What a discovery leaves where nothing was known. -/
def ofDiscovery : Except TopologyError FilesystemMap → Registry
  | .ok found => .loaded found
  | .error _ => .notLoaded

section DiscoverAll

variable {τ : Type} {host : Dialogue.Host τ} {state : τ}

theorem outcome_discoverAll_of_loaded (known : FilesystemMap) :
    discoverAll.outcome (.loaded known) host state = ⟨(.ok known, .loaded known), [], state⟩ :=
  rfl

theorem outcome_discoverAll_of_notLoaded :
    discoverAll.outcome .notLoaded host state =
      let discovery := Query.discover.outcome host state
      ⟨(discovery.value, ofDiscovery discovery.value), discovery.requests, discovery.host⟩ := by
  rw [discoverAll, Update.outcome_bind_ok Update.outcome_get]
  have hasked : (Update.ofQuery Query.discover).outcome Registry.notLoaded host state = _ :=
    Update.outcome_ofQuery Query.discover
  rcases hdiscovery : Query.discover.outcome host state with ⟨result, requests, state'⟩
  rw [hdiscovery] at hasked
  cases result with
  | error e => exact Update.outcome_bind_error hasked
  | ok found =>
    refine (Update.outcome_bind_ok hasked).trans ?_
    exact congrArg
      (fun asked => Dialogue.Outcome.mk (Except.ok found, Registry.loaded found) asked state')
      (List.append_nil requests)

end DiscoverAll

namespace Access

/-- How it is done. -/
def perform : Access → Update Registry Unit
  | .discoverAll => do let _ ← Registry.discoverAll
  | .filesystems => do let _ ← Registry.filesystems
  | .get uuid => do let _ ← Registry.get uuid
  | .find criteria => do let _ ← Registry.find criteria
  | .findByDevice device => do let _ ← Registry.findByDevice device
  | .invalidate => modify Registry.invalidate
  | .within uuid operation => do let _ ← Registry.within uuid operation.perform

/-- The access asks for filesystems. -/
def IsQuery : Access → Prop
  | .invalidate => False
  | .within _ _ => False
  | _ => True

/-- The device whose links a query follows before it looks for filesystems. -/
def device? : Access → Option VfsPath
  | .find criteria => criteria.device
  | .findByDevice device => some device
  | _ => none

variable {τ : Type} {host : Dialogue.Host τ} {state : τ} {access : Access}

/-- The requests with which links are followed. -/
def linkRequests (access : Access) : List Request :=
  access.device?.toList.map .resolveDevice

/-- The host after links were followed. -/
def followLinks (access : Access) (host : Dialogue.Host τ) (state : τ) : τ :=
  match access.device? with
  | none => state
  | some device => (host (.resolveDevice device) state).2

/-! ## One query -/

/-- A query follows links, has the filesystems discovered if need be, and reads its answer off them
without asking further. -/
theorem exists_perform_eq (h : access.IsQuery) :
    ∃ (β : Type) (prepare : Query β) (answer : β → FilesystemMap → Except TopologyError Unit),
      access.perform = (do
        let prepared ← Update.ofQuery prepare
        let found ← Registry.discoverAll
        Update.ofQuery (Query.ofExcept (answer prepared found))) ∧
      ∀ {τ : Type} (host : Dialogue.Host τ) (state : τ), ∃ prepared,
        prepare.outcome host state =
          ⟨.ok prepared, access.linkRequests, access.followLinks host state⟩ := by
  cases access with
  | invalidate => exact h.elim
  | within uuid operation => exact h.elim
  | discoverAll => exact ⟨Unit, pure (), fun _ _ => .ok (), rfl, fun _ _ => ⟨(), rfl⟩⟩
  | filesystems =>
    refine ⟨Unit, pure (), fun _ _ => .ok (), ?_, fun _ _ => ⟨(), rfl⟩⟩
    simp only [perform, Registry.filesystems, bind_assoc, pure_bind]
    rfl
  | get uuid =>
    refine ⟨Unit, pure (), fun _ _ => .ok (), ?_, fun _ _ => ⟨(), rfl⟩⟩
    simp only [perform, Registry.get, bind_assoc, pure_bind]
    rfl
  | find criteria =>
    refine ⟨Criteria, resolveCriteria criteria,
      fun resolved found => (select found resolved).map fun _ => (), ?_, fun host state => ?_⟩
    · simp only [perform, Registry.find, bind_assoc]
      refine bind_congr fun resolved => bind_congr fun found => ?_
      cases select found resolved <;> rfl
    · rw [resolveCriteria, linkRequests, followLinks, device?]
      cases criteria.device with
      | none => exact ⟨criteria, rfl⟩
      | some device => exact ⟨_, rfl⟩
  | findByDevice device =>
    refine ⟨VfsPath, Query.resolveDevice device, fun _ _ => .ok (), ?_, fun _ _ => ⟨_, rfl⟩⟩
    simp only [perform, Registry.findByDevice, bind_assoc, pure_bind]
    rfl

/-- Where the filesystems are known, a query runs no command and leaves them. -/
theorem outcome_of_loaded (h : access.IsQuery) (known : FilesystemMap) (host : Dialogue.Host τ)
    (state : τ) :
    let went := access.perform.outcome (.loaded known) host state
    went.value.2 = .loaded known ∧ went.requests = access.linkRequests := by
  obtain ⟨β, prepare, answer, heq, hprepare⟩ := exists_perform_eq h
  obtain ⟨prepared, houtcome⟩ := hprepare host state
  have hfirst : (Update.ofQuery prepare).outcome (Registry.loaded known) host state =
      ⟨(.ok prepared, .loaded known), access.linkRequests, access.followLinks host state⟩ := by
    rw [Update.outcome_ofQuery, houtcome]
  rw [heq, Update.outcome_bind_ok hfirst,
    Update.outcome_bind_ok (outcome_discoverAll_of_loaded known)]
  exact ⟨rfl, List.append_nil _⟩

/-- Where nothing is known, a query discovers the filesystems from the start, and fails if that
fails. -/
theorem outcome_of_notLoaded (h : access.IsQuery) (host : Dialogue.Host τ) (state : τ) :
    let discovery := Query.discover.outcome host (access.followLinks host state)
    let went := access.perform.outcome .notLoaded host state
    went.value.2 = ofDiscovery discovery.value ∧
      went.requests = access.linkRequests ++ discovery.requests ∧
      ∀ e, discovery.value = .error e → went.value.1 = .error e := by
  intro discovery
  obtain ⟨β, prepare, answer, heq, hprepare⟩ := exists_perform_eq h
  obtain ⟨prepared, houtcome⟩ := hprepare host state
  have hfirst : (Update.ofQuery prepare).outcome Registry.notLoaded host state =
      ⟨(.ok prepared, .notLoaded), access.linkRequests, access.followLinks host state⟩ := by
    rw [Update.outcome_ofQuery, houtcome]
  have hsecond : Registry.discoverAll.outcome .notLoaded host (access.followLinks host state) =
      ⟨(discovery.value, ofDiscovery discovery.value), discovery.requests, discovery.host⟩ :=
    outcome_discoverAll_of_notLoaded
  rw [heq, Update.outcome_bind_ok hfirst]
  cases hvalue : discovery.value with
  | error e =>
    rw [hvalue] at hsecond
    rw [Update.outcome_bind_error hsecond]
    refine ⟨rfl, rfl, fun e' he' => ?_⟩
    obtain rfl := Except.error.inj he'
    rfl
  | ok found =>
    rw [hvalue] at hsecond
    rw [Update.outcome_bind_ok hsecond]
    exact ⟨rfl, congrArg (access.linkRequests ++ ·) (List.append_nil _), fun _ he => nomatch he⟩

end Access

/-! ## Operations in place -/

section Within

variable {τ α : Type} {host : Dialogue.Host τ} {state : τ} {uuid : String} {registry : Registry}

theorem outcome_within_of_none {update : Update Filesystem α} (h : registry.entry? uuid = none) :
    (within uuid update).outcome registry host state = ⟨(.ok none, registry), [], state⟩ := by
  rw [Update.outcome, within, ExceptT.run_mk, StateT.run, h]
  rfl

theorem outcome_within_of_some {update : Update Filesystem α} {fs : Filesystem}
    (h : registry.entry? uuid = some fs) :
    (within uuid update).outcome registry host state =
      let made := update.outcome fs host state
      ⟨(made.value.1.map some, registry.replace uuid made.value.2), made.requests, made.host⟩ := by
  rw [Update.outcome, within, ExceptT.run_mk, StateT.run, h]
  simp only [Dialogue.run_bind]
  simp [Update.outcome, Dialogue.pure_eq_done, Dialogue.run]

/-- Doing anything but to invalidate it leaves a registry loaded, with filesystems that came about
from those that were known; queries leave these as they are. -/
theorem Access.exists_evolves {access : Access} (h : access ≠ .invalidate) (known : FilesystemMap)
    (host : Dialogue.Host τ) (state : τ) :
    ∃ later, (access.perform.outcome (.loaded known) host state).value.2 = .loaded later ∧
      known.Evolves later ∧ (known.HasOwnKeys → later.HasOwnKeys) ∧
      (access.IsQuery → later = known) := by
  by_cases hquery : access.IsQuery
  · exact ⟨known, (outcome_of_loaded hquery known host state).1, FilesystemMap.evolves_refl known,
      id, fun _ => rfl⟩
  cases access with
  | invalidate => exact absurd rfl h
  | within uuid operation =>
    rw [perform, Update.state_discard]
    cases hentry : Registry.entry? (.loaded known) uuid with
    | none =>
      rw [outcome_within_of_none hentry]
      exact ⟨known, rfl, FilesystemMap.evolves_refl known, id, fun _ => rfl⟩
    | some fs =>
      have hstep : Filesystem.Step fs (operation.perform.outcome fs host state).value.2 :=
        ⟨operation, τ, host, state, rfl⟩
      rw [outcome_within_of_some hentry]
      exact ⟨_, rfl, FilesystemMap.evolves_adjust hentry hstep,
        FilesystemMap.HasOwnKeys.adjust hentry hstep, fun h => h.elim⟩
  | _ => exact absurd trivial hquery

/-- Where nothing is known, the registry is loaded by a query whose discovery succeeds. -/
theorem Access.isLoaded_of_notLoaded {access : Access} :
    (access.perform.outcome .notLoaded host state).value.2.isLoaded ↔ access.IsQuery ∧
      ∃ found, (Query.discover.outcome host (access.followLinks host state)).value = .ok found := by
  by_cases hquery : access.IsQuery
  · rw [(outcome_of_notLoaded hquery host state).1]
    cases (Query.discover.outcome host (access.followLinks host state)).value with
    | ok found => exact iff_of_true rfl ⟨hquery, found, rfl⟩
    | error e => simp [ofDiscovery, isLoaded]
  · refine iff_of_false ?_ fun h => hquery h.1
    cases access with
    | invalidate => exact Bool.false_ne_true
    | within uuid operation =>
      rw [perform, Update.state_discard, outcome_within_of_none rfl]
      exact Bool.false_ne_true
    | _ => exact absurd trivial hquery

/-- When a registry is loaded after an access. -/
theorem Access.isLoaded_iff (access : Access) (registry : Registry) :
    (access.perform.outcome registry host state).value.2.isLoaded ↔
      registry.isLoaded ∧ access ≠ .invalidate ∨
        registry.isLoaded = false ∧ access.IsQuery ∧ ∃ found,
          (Query.discover.outcome host (access.followLinks host state)).value = .ok found := by
  cases registry with
  | notLoaded =>
    rw [isLoaded_of_notLoaded]
    simp [isLoaded]
  | loaded known =>
    by_cases hinvalidate : access = .invalidate
    · subst hinvalidate
      exact iff_of_false Bool.false_ne_true (by simp [isLoaded])
    · obtain ⟨later, hlater, -⟩ := exists_evolves hinvalidate known host state
      rw [hlater]
      exact iff_of_true rfl (.inl ⟨rfl, hinvalidate⟩)

end Within

/-! ## Runs -/

section Run

variable {τ : Type} {host : Dialogue.Host τ} {state : τ} {before after : List Access}
  {access : Access} {known found : FilesystemMap}

/-- The registry and the host after accesses were made one after another, whether or not each
succeeded. -/
def run (host : Dialogue.Host τ) : List Access → Registry × τ → Registry × τ
  | [], reached => reached
  | access :: rest, reached =>
    let went := access.perform.outcome reached.1 host reached.2
    run host rest (went.value.2, went.host)

theorem run_append (before after : List Access) (start : Registry × τ) :
    run host (before ++ after) start = run host after (run host before start) := by
  induction before generalizing start with
  | nil => rfl
  | cons access rest ih => exact ih _

/-- After some accesses of a run on a new registry a query made a discovery that succeeded. -/
structure FindsAt (host : Dialogue.Host τ) (state : τ) (before : List Access) (access : Access)
    (found : FilesystemMap) : Prop where
  query : access.IsQuery
  unknown : (run host before (.notLoaded, state)).1 = .notLoaded
  discovery : (Query.discover.outcome host
    (access.followLinks host (run host before (.notLoaded, state)).2)).value = .ok found

/-- Without an invalidation a registry stays loaded. -/
theorem exists_run_evolves (hafter : ∀ access ∈ after, access ≠ .invalidate)
    (known : FilesystemMap) (state : τ) :
    ∃ later, (run host after (.loaded known, state)).1 = .loaded later ∧ known.Evolves later ∧
      (known.HasOwnKeys → later.HasOwnKeys) ∧
      ((∀ access ∈ after, access.IsQuery) → later = known) := by
  induction after generalizing known state with
  | nil => exact ⟨known, rfl, FilesystemMap.evolves_refl known, id, fun _ => rfl⟩
  | cons access rest ih =>
    obtain ⟨next, hnext, hevolves, hkeys, hsame⟩ :=
      Access.exists_evolves (hafter access List.mem_cons_self) known host state
    obtain ⟨later, hlater, hevolves', hkeys', hsame'⟩ :=
      ih (fun other hother => hafter other (List.mem_cons_of_mem access hother)) next
        (access.perform.outcome (.loaded known) host state).host
    refine ⟨later, ?_, hevolves.trans hevolves', hkeys' ∘ hkeys, fun hqueries => ?_⟩
    · rw [run, hnext]
      exact hlater
    · rw [hsame' fun other hother => hqueries other (List.mem_cons_of_mem access hother),
        hsame (hqueries access List.mem_cons_self)]

/-- What a discovery found is what is known until the next invalidation. -/
theorem FindsAt.exists_run (h : FindsAt host state before access found)
    (hafter : ∀ access ∈ after, access ≠ .invalidate) :
    ∃ later, (run host (before ++ access :: after) (.notLoaded, state)).1 = .loaded later ∧
      found.Evolves later ∧ later.HasOwnKeys ∧
      ((∀ access ∈ after, access.IsQuery) → later = found) := by
  rw [run_append]
  rcases hreached : run host before (.notLoaded, state) with ⟨registry, state'⟩
  obtain ⟨query, unknown, discovery⟩ := h
  rw [hreached] at unknown discovery
  obtain rfl : registry = .notLoaded := unknown
  have hloaded : (access.perform.outcome .notLoaded host state').value.2 = .loaded found := by
    rw [(Access.outcome_of_notLoaded query host state').1, discovery]
    rfl
  have hkeys : found.HasOwnKeys := Query.yields_discover_hasOwnKeys _ _ _ _ discovery
  obtain ⟨later, hlater, hevolves, hown, hsame⟩ :=
    exists_run_evolves hafter found (access.perform.outcome .notLoaded host state').host
  refine ⟨later, ?_, hevolves, hown hkeys, hsame⟩
  rw [run, hloaded]
  exact hlater

/-- What is known was found by some discovery since the last invalidation. -/
theorem exists_findsAt {accesses : List Access}
    (h : (run host accesses (.notLoaded, state)).1.isLoaded) :
    ∃ before access after found, accesses = before ++ access :: after ∧
      (∀ access ∈ after, access ≠ .invalidate) ∧ FindsAt host state before access found := by
  -- The last access has loaded the registry, or the ones before it have and it left it loaded.
  induction accesses using List.reverseRecOn with
  | nil => contradiction
  | append_singleton front access ih =>
    rw [run_append] at h
    rcases hreached : run host front (.notLoaded, state) with ⟨registry, state'⟩
    rw [hreached] at h ih
    replace h : (access.perform.outcome registry host state').value.2.isLoaded := h
    cases registry with
    | loaded known =>
      have hkept : access ≠ .invalidate := by
        rintro rfl
        contradiction
      obtain ⟨before, first, after, found, rfl, hafter, hfinds⟩ := ih rfl
      refine ⟨before, first, after ++ [access], found, by simp, fun other hother => ?_, hfinds⟩
      rcases List.mem_append.1 hother with hother | hother
      · exact hafter other hother
      · exact List.mem_singleton.1 hother ▸ hkept
    | notLoaded =>
      obtain ⟨hquery, found, hfound⟩ := Access.isLoaded_of_notLoaded.1 h
      refine ⟨front, access, [], found, rfl, fun _ hother => absurd hother List.not_mem_nil,
        hquery, ?_, ?_⟩
      · rw [hreached]
      · rw [hreached]
        exact hfound

/-- Since the last invalidation only one discovery succeeded. -/
theorem FindsAt.unique {before' after' : List Access} {access' : Access} {found' : FilesystemMap}
    (h : FindsAt host state before access found) (h' : FindsAt host state before' access' found')
    (hafter : ∀ access ∈ after, access ≠ .invalidate)
    (hafter' : ∀ access ∈ after', access ≠ .invalidate)
    (heq : before ++ access :: after = before' ++ access' :: after') : before = before' := by
  -- What was found first would still be known where the other discovery was made.
  have hlater {front middle : List Access} {first : Access} {found : FilesystemMap}
      (hfinds : FindsAt host state front first found)
      (hmiddle : ∀ access ∈ middle, access ≠ .invalidate) :
      (run host (front ++ first :: middle) (.notLoaded, state)).1 ≠ .notLoaded := by
    obtain ⟨later, hlater, -⟩ := hfinds.exists_run hmiddle
    rw [hlater]
    nofun
  rcases List.append_eq_append_iff.1 heq with ⟨gap, rfl, hgap⟩ | ⟨gap, rfl, hgap⟩
  · cases gap with
    | nil => exact (List.append_nil _).symm
    | cons first middle =>
      obtain ⟨rfl, rfl⟩ := List.cons.inj hgap
      refine absurd h'.unknown (hlater h fun other hother => hafter other ?_)
      exact List.mem_append_left _ hother
  · cases gap with
    | nil => exact List.append_nil _
    | cons first middle =>
      obtain ⟨rfl, rfl⟩ := List.cons.inj hgap
      refine absurd h.unknown (hlater h' fun other hother => hafter' other ?_)
      exact List.mem_append_left _ hother

/-- The filesystems of a registry are discovered once. In every state that a run on a new registry
leads to, it is loaded after an access if it was loaded before and is not invalidated, or if it was
not loaded and the discovery that a query then makes succeeds, and not otherwise. Where it is
loaded, a query leaves it as it is and asks the host nothing but to follow links, whatever its
answer; where it is not, the query discovers from the start, and if that fails, so does the query,
and the registry is not loaded. What is known was found by one discovery, the only one that
succeeded since the last invalidation, and changes by operations on single filesystems alone. Each
stands under its identity. -/
theorem cached_of_run (host : Dialogue.Host τ) (state : τ) (accesses : List Access) :
    let reached := run host accesses (.notLoaded, state)
    (∀ access : Access,
      let discovery := Query.discover.outcome host (access.followLinks host reached.2)
      let went := access.perform.outcome reached.1 host reached.2
      (went.value.2.isLoaded ↔
        reached.1.isLoaded ∧ access ≠ .invalidate ∨
          reached.1.isLoaded = false ∧ access.IsQuery ∧ ∃ found, discovery.value = .ok found) ∧
      (access.IsQuery → reached.1.isLoaded →
        went.value.2 = reached.1 ∧ went.requests = access.linkRequests) ∧
      (access.IsQuery → reached.1.isLoaded = false →
        went.requests = access.linkRequests ++ discovery.requests ∧
          ∀ e, discovery.value = .error e → went.value = (.error e, .notLoaded))) ∧
    ∀ known, reached.1 = .loaded known →
      known.HasOwnKeys ∧
      ∃ before access after found, accesses = before ++ access :: after ∧
        (∀ other ∈ after, other ≠ .invalidate) ∧ FindsAt host state before access found ∧
        found.Evolves known ∧ ((∀ other ∈ after, other.IsQuery) → known = found) ∧
        ∀ before' access' after' found', accesses = before' ++ access' :: after' →
          (∀ other ∈ after', other ≠ .invalidate) →
          FindsAt host state before' access' found' → before' = before := by
  intro reached
  refine ⟨fun access => ?_, fun known hknown => ?_⟩
  · refine ⟨access.isLoaded_iff reached.1, fun hquery hloaded => ?_, fun hquery hloaded => ?_⟩
    · obtain ⟨known, hknown⟩ := isLoaded_iff_exists.1 hloaded
      rw [hknown]
      exact Access.outcome_of_loaded hquery known host reached.2
    · rw [isLoaded_eq_false_iff.1 hloaded]
      obtain ⟨hregistry, hrequests, herror⟩ :=
        Access.outcome_of_notLoaded hquery host reached.2
      refine ⟨hrequests, fun e he => Prod.ext (herror e he) ?_⟩
      rw [hregistry, he]
      rfl
  · have hloaded : reached.1.isLoaded = true := by
      rw [hknown]
      rfl
    obtain ⟨before, access, after, found, rfl, hafter, hfinds⟩ := exists_findsAt hloaded
    obtain ⟨later, hlater, hevolves, hown, hsame⟩ := hfinds.exists_run hafter
    obtain rfl := Registry.loaded.inj (hlater.symm.trans hknown)
    refine ⟨hown, before, access, after, found, rfl, hafter, hfinds, hevolves, hsame, ?_⟩
    intro before' access' after' found' heq hafter' hfinds'
    exact (hfinds.unique hfinds' hafter hafter' heq).symm

/-- On a host whose first listing fails, a registry is asked for all filesystems, for one of them,
and for one that is not there; then the one that was found gets a label. -/
theorem cached_of_run_after_failure :
    let host : Dialogue.Host Nat
      | .inspect .filesystems, 0 => (.ok ⟨"btrfs", 1, "", "ERROR: busy"⟩, 1)
      | .inspect .filesystems, count =>
        (.ok ⟨"btrfs", 0, "Label: none  uuid: 1111\ndevid 1 path /dev/sda\n", ""⟩, count + 1)
      | .inspect _, count => (.ok ⟨"findmnt", 1, "", ""⟩, count + 1)
      | .mutate _, count => (.ok (), count)
      | .resolveDevice device, count => (device, count)
    let accesses : List Access :=
      [.discoverAll, .get "1111", .find { label := some "data" },
        .within "1111" (.setLabel (some "data"))]
    let fs := Filesystem.new "1111" none [⟨"/dev/sda"⟩]
    let known : FilesystemMap := ⟨[("1111", fs.setLabel (some "data"))]⟩
    let reached := run host accesses (.notLoaded, 0)
    reached.1 = .loaded known ∧
      (run host [.discoverAll] (.notLoaded, 0)).1 = .notLoaded ∧
      known.HasOwnKeys ∧
      (∃ before access after found, accesses = before ++ access :: after ∧
        FindsAt host 0 before access found ∧ found.Evolves known) ∧
      (Access.filesystems.perform.outcome reached.1 host reached.2).requests = [] := by
  intro host accesses fs known reached
  have hknown : reached.1 = .loaded known := by decide +kernel
  have hfailed : (run host [.discoverAll] (.notLoaded, 0)).1 = .notLoaded := by decide +kernel
  obtain ⟨hstep, hfound⟩ := cached_of_run host 0 accesses
  obtain ⟨hown, before, access, after, found, heq, -, hfinds, hevolves, -⟩ := hfound known hknown
  obtain ⟨-, hquery, -⟩ := hstep .filesystems
  have hloaded : reached.1.isLoaded = true := by rw [hknown]; rfl
  exact ⟨hknown, hfailed, hown, ⟨before, access, after, found, heq, hfinds, hevolves⟩,
    (hquery trivial hloaded).2⟩

end Run

end Registry

end BtrfsTopology
