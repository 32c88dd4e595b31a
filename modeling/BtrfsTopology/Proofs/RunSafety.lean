import BtrfsTopology.Proofs.Machine
import BtrfsTopology.Proofs.Selection

/-!
# What a command line makes a machine start

A run of a command line changes at most one thing, and only what it was told to. A change starts its
command once the filesystems have been discovered and one of them was selected, and refreshes that
one if the command succeeds; nothing else that a run starts changes anything. The proof goes from
the inside out: a change of a known filesystem, an action that selects one, a run that reads its
action off a command line.

## Main definitions

* `Task.outcome` — how a task went
* `Machine.Selects` — one filesystem alone matches among those discovered
* `Machine.ChangesSelected` — a change of a selected filesystem, launch by launch
* `Machine.ActionChanges` — an action makes the change that it asks for
* `Arguments.subcommandName?` — the word of a command line that says what is to be done
* `Machine.RunChanges` — a run makes the change that its command line asks for

## Main results

* `Action.outcome_selected` — the selection that all actions but one begin with
* `Arguments.subcommandName?_of_parse?` — what is to be done is what the word says
* `Machine.changed_cases`, `Machine.act_cases` — what a change and an action start
* `Machine.act_changes_at_most_once` — what any action starts with any tools, and how it ends
* `Machine.run_cases` — a run is an action, unless it ends before
* `Machine.run_changes_at_most_once` — what the run of a command line starts, and how it ends
-/

namespace BtrfsTopology

variable {α β τ : Type}

/-! ## Tasks -/

/-- How a task went. -/
def Task.outcome (task : Task α) (host : Dialogue.Host τ) (state : τ) :
    Dialogue.Outcome (Except Failure α) τ :=
  (ExceptT.run task).run host state

section Outcomes

variable {host : Dialogue.Host τ} {state : τ}

/-- A task that only goes on from a query with a function asks what the query asks. -/
theorem Task.outcome_ofQuery_bind (query : Query α) (f : α → Except Failure β) :
    Task.outcome (Task.ofQuery query >>= fun a => ExceptT.mk (pure (f a))) host state =
      let asked := query.outcome host state
      ⟨(asked.value.mapError .topology).bind f, asked.requests, asked.host⟩ := by
  rw [outcome, ExceptT.run_bind, ofQuery, ExceptT.run_mk, Dialogue.run_bind, Dialogue.run_bind]
  rcases hquery : (ExceptT.run query).run host state with ⟨result, requests, state'⟩
  rw [Query.outcome, hquery]
  cases result <;>
    simp [Dialogue.pure_eq_done, Dialogue.run, Except.mapError, Except.bind]

/-- The result of an update without the state that it leaves. -/
theorem Update.outcome_result {σ : Type} (update : Update σ α) (start : σ) :
    Query.outcome (ExceptT.mk do return (← update.run.run start).1) host state =
      let made := update.outcome start host state
      ⟨made.value.1, made.requests, made.host⟩ := by
  rw [Query.outcome, ExceptT.run_mk, Dialogue.run_bind]
  simp [Update.outcome, Dialogue.pure_eq_done, Dialogue.run]

/-- A fresh registry discovers the filesystems of which one is selected. -/
theorem Action.outcome_selected (c : Criteria) :
    (Action.selected c).outcome host state =
      let linked := (Registry.Access.find c).followLinks host state
      let discovery := Query.discover.outcome host linked
      ⟨discovery.value.bind fun found => Registry.select found (c.resolved host state),
        (Registry.Access.find c).linkRequests ++ discovery.requests, discovery.host⟩ := by
  rw [selected, Update.outcome_result, Registry.outcome_find,
    Registry.outcome_discoverAll_of_notLoaded]

/-- It is selected if it alone matches among what was discovered. -/
theorem Action.selected_eq_ok_iff {c : Criteria} {fs : Filesystem} :
    ((Action.selected c).outcome host state).value = .ok fs ↔
      ∃ found, (Query.discover.outcome host
        ((Registry.Access.find c).followLinks host state)).value = .ok found ∧
          found.values.filter (c.resolved host state).admits = [fs] := by
  rw [outcome_selected]
  dsimp only
  cases hfound : (Query.discover.outcome host
      ((Registry.Access.find c).followLinks host state)).value with
  | error e => simp [Except.bind]
  | ok found =>
    simp [Except.bind, Registry.select_eq_ok_iff (FilesystemMap.isKnown_of_discover hfound)]

end Outcomes

/-! ## Actions that only look -/

theorem Action.asks_selected (c : Criteria) : (selected c).Asks Request.IsHarmless := by
  intro τ host state r hr
  rw [outcome_selected] at hr
  rcases List.mem_append.1 hr with hr | hr
  · obtain ⟨device, -, rfl⟩ := List.mem_map.1 hr
    nofun
  · exact (Query.asks_discover τ host _ r hr).isHarmless

/-- An action that changes nothing is a query, of whose value it makes a line or a failure. -/
theorem Action.exists_perform_eq {action : Action} (h : ∀ c change, action ≠ .carryOut c change) :
    ∃ (β : Type) (query : Query β) (f : β → Except Failure String),
      action.perform = (Task.ofQuery query >>= fun a => ExceptT.mk (pure (f a))) ∧
        query.Asks Request.IsHarmless := by
  cases action with
  | list =>
    refine ⟨_, Query.discover, fun found => .ok (Json.list (found.values.map _)).render, rfl, ?_⟩
    exact fun τ host state r hr => (Query.asks_discover τ host state r hr).isHarmless
  | report c => exact ⟨_, selected c, fun fs => .ok fs.toJson.render, rfl, asks_selected c⟩
  | resolve c path =>
    refine ⟨_, selected c, fun fs =>
      ((fs.subvolumes.childPath path).mapError .topology).map VfsPath.text, ?_, asks_selected c⟩
    refine bind_congr fun fs => ?_
    beta_reduce
    cases fs.subvolumes.childPath path <;> rfl
  | nearest c path =>
    exact ⟨_, selected c, fun fs => .ok (fs.subvolumes.nearest path).answerJson.render, rfl,
      asks_selected c⟩
  | lookup c path =>
    refine ⟨_, selected c, fun fs => (fs.lookup? path).elim (.error (.outsideMounts path))
      fun s => .ok s.answerJson.render, ?_, asks_selected c⟩
    refine bind_congr fun fs => ?_
    beta_reduce
    cases fs.lookup? path <;> rfl
  | carryOut c change => exact absurd rfl (h c change)

/-- The line that a change prints is made of its mutation without asking for anything more. -/
theorem Action.outcome_perform_carryOut {host : Dialogue.Host τ} {state : τ} (c : Criteria)
    (change : Change) :
    (Action.carryOut c change).perform.outcome host state =
      let asked := (Action.changed c change).outcome host state
      ⟨(asked.value.mapError .topology).bind fun mutation => .ok mutation.toJson.render,
        asked.requests, asked.host⟩ :=
  Task.outcome_ofQuery_bind (Action.changed c change) fun mutation => .ok mutation.toJson.render

namespace Machine

variable (machine : Machine τ) (tools : Tools)

/-- An action that changes nothing starts nothing that does. -/
theorem not_mutates_of_action {action : Action} (h : ∀ c change, action ≠ .carryOut c change)
    (state : τ) :
    ∀ launch ∈ (action.perform.outcome (machine.host tools) ⟨state, []⟩).host.launches,
      launch.invocation.mutates = false := by
  obtain ⟨β, query, f, heq, hasks⟩ := Action.exists_perform_eq h
  rw [heq, Task.outcome_ofQuery_bind]
  exact not_mutates_of_asks (hasks _ _ _)

/-! ## Changes of a selected filesystem -/

/-- The discovery that a selection makes on a machine, once links have been followed. -/
def discovery (criteria : Criteria) (state : τ) :
    Dialogue.Outcome (Except TopologyError FilesystemMap) (Recorded τ) :=
  Query.discover.outcome (machine.host tools)
    ((Registry.Access.find criteria).followLinks (machine.host tools) ⟨state, []⟩)

/-- Filesystems are discovered, and one of them alone matches. -/
def Selects (criteria : Criteria) (state : τ) (fs : Filesystem) : Prop :=
  ∃ found, (machine.discovery tools criteria state).value = .ok found ∧
    found.values.filter (criteria.resolved (machine.host tools) ⟨state, []⟩).admits = [fs]

/-- A filesystem is selected, the paths of a change stand for a mutation of it, and this is made. -/
structure ChangesSelected (criteria : Criteria) (change : Change) (state : τ) (fs : Filesystem)
    (mutation : Mutation) (before : List Launch) (launch : Launch) (after : List Launch) :
    Prop where
  selects : machine.Selects tools criteria state fs
  before_eq : before = (machine.discovery tools criteria state).host.launches
  resolves : fs.Resolves change mutation
  makes : machine.Makes tools fs mutation (machine.discovery tools criteria state).host.machine
    launch after

/-- Following links starts nothing. -/
theorem launches_followLinks (criteria : Criteria) (state : τ) :
    ((Registry.Access.find criteria).followLinks (machine.host tools) ⟨state, []⟩).launches =
      [] := by
  obtain ⟨uuid, label, device⟩ := criteria
  cases device <;> rfl

theorem not_mutates_of_discovery (criteria : Criteria) (state : τ) :
    ∀ launch ∈ (machine.discovery tools criteria state).host.launches,
      launch.invocation.mutates = false := by
  -- Links were followed before, so the discovery does begin with an empty record.
  have hlinks := machine.launches_followLinks tools criteria state
  rw [discovery]
  rcases hlinked : (Registry.Access.find criteria).followLinks (machine.host tools) ⟨state, []⟩ with
    ⟨later, launches⟩
  rw [hlinked] at hlinks
  obtain rfl : launches = [] := hlinks
  exact not_mutates_of_asks fun r hr => (Query.asks_discover _ _ _ r hr).isHarmless

/-- With a selected filesystem, a change goes on as it would with that one where the discovery
ends. -/
theorem outcome_changed_of_selects {criteria : Criteria} {state : τ} {fs : Filesystem}
    (h : machine.Selects tools criteria state fs) (change : Change) :
    let went := (Action.changed criteria change).outcome (machine.host tools) ⟨state, []⟩
    let made := (Filesystem.carryOut change).outcome fs (machine.host tools)
      (machine.discovery tools criteria state).host
    went.value = made.value.1 ∧ went.host = made.host := by
  intro went made
  have hvalue := Action.selected_eq_ok_iff.2 h
  rcases hselected : (Action.selected criteria).outcome (machine.host tools) ⟨state, []⟩ with
    ⟨result, requests, recorded⟩
  rw [hselected] at hvalue
  obtain rfl : result = .ok fs := hvalue
  have hrecorded : recorded = (machine.discovery tools criteria state).host := by
    rw [Action.outcome_selected] at hselected
    exact (congrArg Dialogue.Outcome.host hselected).symm
  have hwent : went = _ := Query.outcome_bind_ok hselected
  rw [Update.outcome_result, hrecorded] at hwent
  rw [hwent]
  exact ⟨rfl, rfl⟩

/-- An action that changes something fails without having started a change, or it has started the
one of the filesystem that it selects; then it fails unless that has succeeded. -/
theorem changed_cases (criteria : Criteria) (change : Change) (state : τ) :
    let went := (Action.changed criteria change).outcome (machine.host tools) ⟨state, []⟩
    ((∃ e, went.value = .error e) ∧
        ∀ launch ∈ went.host.launches, launch.invocation.mutates = false) ∨
      ∃ fs mutation before launch after,
        machine.ChangesSelected tools criteria change state fs mutation before launch after ∧
        went.host.launches = before ++ launch :: after ∧
        (launch.succeeded = false → ∃ e, went.value = .error e) := by
  intro went
  have hlooks := machine.not_mutates_of_discovery tools criteria state
  rcases hselected : (Action.selected criteria).outcome (machine.host tools) ⟨state, []⟩ with
    ⟨result, requests, recorded⟩
  cases result with
  | error e =>
    have hwent : went = _ := Query.outcome_bind_error hselected
    rw [Action.outcome_selected] at hselected
    refine .inl ⟨⟨e, by rw [hwent]⟩, ?_⟩
    rw [hwent, ← congrArg Dialogue.Outcome.host hselected]
    exact hlooks
  | ok fs =>
    have hselects : machine.Selects tools criteria state fs :=
      Action.selected_eq_ok_iff.1 (congrArg Dialogue.Outcome.value hselected)
    obtain ⟨hvalue, hhost⟩ := machine.outcome_changed_of_selects tools hselects change
    simp only [went, hvalue, hhost]
    rcases carryOut_launches fs change (machine.discovery tools criteria state).host with
      ⟨herror, hsame⟩ | ⟨mutation, launch, after, hresolves, hmakes, hlaunches, hfailed⟩
    · exact .inl ⟨herror, hsame ▸ hlooks⟩
    · exact .inr ⟨fs, mutation, _, launch, after, ⟨hselects, rfl, hresolves, hmakes⟩, hlaunches,
        hfailed⟩

end Machine

/-! ## Words for actions -/

/-- The word that asks for a change. -/
def Change.verb : Change → String
  | .create _ => "create"
  | .delete _ => "delete"
  | .snapshot _ _ => "snapshot"
  | .setDefault _ => "set-default"
  | .setDefaultId _ => "set-default"

/-- The word that asks for an action. -/
def Action.verb : Action → String
  | .list => "list"
  | .report _ => "show"
  | .resolve _ _ => "resolve"
  | .nearest _ _ => "nearest"
  | .lookup _ _ => "lookup"
  | .carryOut _ change => change.verb

theorem Action.verb_mem_mutatingVerbs {action : Action} :
    action.verb ∈ mutatingVerbs ↔ ∃ c change, action = .carryOut c change := by
  cases action with
  | carryOut c change =>
    refine iff_of_true ?_ ⟨c, change, rfl⟩
    cases change <;> simp [verb, Change.verb, mutatingVerbs]
  | _ => simp [verb, mutatingVerbs]

/-- The command of a mutation is asked for by the same word as the change that it makes. -/
theorem Filesystem.Resolves.verb_prefix {fs : Filesystem} {change : Change} {mutation : Mutation}
    (h : fs.Resolves change mutation) : ["subvolume", change.verb] <+: mutation.arguments := by
  induction h with
  | setDefault _ h _ => cases h; exact ⟨_, rfl⟩
  | _ => exact ⟨_, rfl⟩

/-! ## Actions -/

theorem Verdict.stdout_of_status_ne_zero {verdict : Verdict} (h : verdict.status ≠ 0) :
    verdict.stdout = "" := by
  cases verdict with
  | printed line => exact absurd rfl h
  | _ => rfl

namespace Machine

variable {machine : Machine τ} {tools : Tools} {action : Action} {state : τ}
  {before after : List Launch} {launch : Launch}

/-- An action makes the change that it asks for. -/
def ActionChanges (machine : Machine τ) (tools : Tools) (action : Action) (state : τ)
    (before : List Launch) (launch : Launch) (after : List Launch) : Prop :=
  ∃ criteria change fs mutation, action = .carryOut criteria change ∧
    machine.ChangesSelected tools criteria change state fs mutation before launch after

/-- Among the launches of such an action, that of the change is the only one that changes
anything. -/
theorem ActionChanges.not_mutates
    (h : machine.ActionChanges tools action state before launch after) :
    launch.invocation.mutates ∧ (∀ other ∈ before, other.invocation.mutates = false) ∧
      ∀ other ∈ after, other.invocation.mutates = false := by
  obtain ⟨criteria, change, fs, mutation, -, h⟩ := h
  obtain ⟨hinvocation, hafter⟩ := h.makes.not_mutates
  refine ⟨?_, ?_, hafter⟩
  · rw [hinvocation]
    exact tools.mutates_mutation mutation
  · rw [h.before_eq]
    exact machine.not_mutates_of_discovery tools criteria state

/-- The action and the command have the same word for the change. -/
theorem ActionChanges.verb (h : machine.ActionChanges tools action state before launch after) :
    action.verb ∈ mutatingVerbs ∧ ["subvolume", action.verb] <+: launch.invocation.arguments := by
  obtain ⟨criteria, change, fs, mutation, rfl, h⟩ := h
  refine ⟨Action.verb_mem_mutatingVerbs.2 ⟨criteria, change, rfl⟩, ?_⟩
  rw [h.makes.not_mutates.1]
  exact h.resolves.verb_prefix

/-- An action on a machine is its task, led with that machine. -/
theorem act_eq (machine : Machine τ) (tools : Tools) (action : Action) (state : τ) :
    machine.act tools action state =
      let went := action.perform.outcome (machine.host tools) ⟨state, []⟩
      (.ofResult went.value, went.host) := by
  have hlead : StateT.run (action.perform.run.lead
      (tools.answer machine.launchRecorded machine.followRecorded)) ⟨state, []⟩ =
        let went := action.perform.outcome (machine.host tools) ⟨state, []⟩
        (went.value, went.host) :=
    Dialogue.lead_eq_run (machine.host tools) _ _
  rw [act, Action.execute, StateT.run_bind, hlead]
  rfl

/-- An action starts nothing that changes anything, and if it is a change it fails; or it makes its
change, and fails unless that has succeeded. -/
theorem act_cases (machine : Machine τ) (tools : Tools) (action : Action) (state : τ) :
    let went := machine.act tools action state
    ((∀ launch ∈ went.2.launches, launch.invocation.mutates = false) ∧
        (action.verb ∈ mutatingVerbs → went.1.status ≠ 0)) ∨
      ∃ before launch after, machine.ActionChanges tools action state before launch after ∧
        went.2.launches = before ++ launch :: after ∧
        (launch.succeeded = false → went.1.status ≠ 0) := by
  intro went
  have hwent : went = _ := machine.act_eq tools action state
  by_cases hlooks : ∀ c change, action ≠ .carryOut c change
  · refine .inl ⟨?_, fun hverb => ?_⟩
    · rw [hwent]
      exact machine.not_mutates_of_action tools hlooks state
    · obtain ⟨c, change, haction⟩ := Action.verb_mem_mutatingVerbs.1 hverb
      exact absurd haction (hlooks c change)
  · simp only [ne_eq, not_forall, not_not] at hlooks
    obtain ⟨criteria, change, rfl⟩ := hlooks
    rw [Action.outcome_perform_carryOut] at hwent
    have hfails : ∀ e, ((Action.changed criteria change).outcome (machine.host tools)
        ⟨state, []⟩).value = .error e → went.1.status ≠ 0 := by
      intro e he
      rw [hwent]
      dsimp only
      rw [he]
      exact Nat.one_ne_zero
    rcases machine.changed_cases tools criteria change state with
      ⟨⟨e, he⟩, hlaunches⟩ | ⟨fs, mutation, before, launch, after, hchanges, hlaunches, hfailed⟩
    · exact .inl ⟨by rw [hwent]; exact hlaunches, fun _ => hfails e he⟩
    · refine .inr ⟨before, launch, after, ⟨criteria, change, fs, mutation, rfl, hchanges⟩,
        by rw [hwent]; exact hlaunches, fun h => ?_⟩
      obtain ⟨e, he⟩ := hfailed h
      exact hfails e he

/-- An action makes its change whenever one filesystem alone matches, the paths stand for a mutation
of it, and the command for this can be started. -/
theorem exists_launch_of_act {criteria : Criteria} {change : Change} {fs : Filesystem}
    {mutation : Mutation} (haction : action = .carryOut criteria change)
    (hselects : machine.Selects tools criteria state fs) (hresolves : fs.Resolves change mutation)
    (hnul : (tools.mutation mutation).hasNul = false) :
    ∃ launch ∈ (machine.act tools action state).2.launches,
      launch.invocation = tools.mutation mutation := by
  obtain ⟨launch, after, hmakes, hlaunches, -⟩ : ∃ launch after,
      machine.Makes tools fs mutation (machine.discovery tools criteria state).host.machine launch
        after ∧ _ :=
    carryOut_launches_of_startable hresolves.plan_eq hnul
  obtain ⟨-, hhost⟩ := machine.outcome_changed_of_selects tools hselects change
  refine ⟨launch, ?_, hmakes.not_mutates.1⟩
  rw [act_eq, haction]
  dsimp only
  rw [Action.outcome_perform_carryOut]
  dsimp only
  rw [hhost, hlaunches]
  exact List.mem_append_cons_self

theorem countP_mutates_eq_zero {launches : List Launch}
    (h : ∀ launch ∈ launches, launch.invocation.mutates = false) :
    launches.countP (fun launch => launch.invocation.mutates) = 0 :=
  List.countP_eq_zero.2 fun launch hlaunch => by simp [h launch hlaunch]

/-- A launch that changes something is the one between launches that do not. -/
theorem eq_of_mutates {before' after' : List Launch} {launch' : Launch}
    (hbefore : ∀ other ∈ before, other.invocation.mutates = false)
    (hafter : ∀ other ∈ after, other.invocation.mutates = false)
    (hmutates : launch'.invocation.mutates)
    (heq : before ++ launch :: after = before' ++ launch' :: after') :
    before = before' ∧ launch = launch' ∧ after = after' := by
  have hnot {launches : List Launch}
      (h : ∀ other ∈ launches, other.invocation.mutates = false) : launch' ∉ launches :=
    fun hmem => by simp [h launch' hmem] at hmutates
  exact (List.append_cons_inj_of_notMem (hnot hbefore) (hnot hafter)).1 heq

/-- An action starts at most one command that changes anything. It starts one only if it asks for
that command, one filesystem alone matches among those discovered, and the paths stand for the
mutation of it; before come the commands of the discovery, and behind come those of one refresh if
the command has exited with status 0, and none otherwise. Every other action starts none. A change
that ends with status 0 has started its command, and that has exited with status 0. With another
status nothing is printed. And a change does start its command if one filesystem alone matches, the
paths stand for a mutation of it, and no word of the command has a NUL character. -/
theorem act_changes_at_most_once (machine : Machine τ) (tools : Tools) (action : Action)
    (state : τ) :
    let went := machine.act tools action state
    went.2.launches.countP (fun launch => launch.invocation.mutates) ≤ 1 ∧
    (∀ before launch after, went.2.launches = before ++ launch :: after →
      launch.invocation.mutates →
        machine.ActionChanges tools action state before launch after ∧
        action.verb ∈ mutatingVerbs ∧
        ["subvolume", action.verb] <+: launch.invocation.arguments) ∧
    (action.verb ∉ mutatingVerbs →
      ∀ launch ∈ went.2.launches, launch.invocation.mutates = false) ∧
    (action.verb ∈ mutatingVerbs → went.1.status = 0 →
      ∃ launch ∈ went.2.launches, ["subvolume", action.verb] <+: launch.invocation.arguments ∧
        ∃ finished, launch.result = .ok finished ∧ finished.status = some 0) ∧
    (went.1.status ≠ 0 → went.1.stdout = "") ∧
    ∀ criteria change fs mutation, action = .carryOut criteria change →
      machine.Selects tools criteria state fs → fs.Resolves change mutation →
      (tools.mutation mutation).hasNul = false →
        ∃ launch ∈ went.2.launches, launch.invocation = tools.mutation mutation := by
  intro went
  -- Either no launch changes anything, or one does, and the others are those around it.
  rcases machine.act_cases tools action state with
    ⟨hlooks, hfails⟩ | ⟨before, launch, after, hchanges, hlaunches, hfailed⟩
  · refine ⟨?_, ?_, fun _ => hlooks, ?_, Verdict.stdout_of_status_ne_zero,
      fun _ _ _ _ => exists_launch_of_act⟩
    · rw [countP_mutates_eq_zero hlooks]
      exact Nat.zero_le 1
    · intro before launch after hlaunches hmutates
      have hlaunch : launch ∈ went.2.launches := hlaunches ▸ List.mem_append_cons_self
      simp [hlooks launch hlaunch] at hmutates
    · exact fun hverb hstatus => absurd hstatus (hfails hverb)
  · obtain ⟨hmutates, hbefore, hafter⟩ := hchanges.not_mutates
    obtain ⟨hverb, hprefix⟩ := hchanges.verb
    have hlaunches : went.2.launches = before ++ launch :: after := hlaunches
    refine ⟨?_, ?_, fun hnot => absurd hverb hnot, fun _ hstatus => ?_,
      Verdict.stdout_of_status_ne_zero, fun _ _ _ _ => exists_launch_of_act⟩
    · rw [hlaunches, List.countP_append, List.countP_cons, hmutates,
        countP_mutates_eq_zero hbefore, countP_mutates_eq_zero hafter]
      exact Nat.le_refl 1
    · intro before' launch' after' hlaunches' hmutates'
      obtain ⟨rfl, rfl, rfl⟩ :=
        eq_of_mutates hbefore hafter hmutates' (hlaunches.symm.trans hlaunches')
      exact ⟨hchanges, hverb, hprefix⟩
    · have hsucceeded : launch.succeeded = true := by
        cases h : launch.succeeded with
        | true => rfl
        | false => exact absurd hstatus (hfailed h)
      exact ⟨launch, hlaunches ▸ List.mem_append_cons_self, hprefix,
        Launch.succeeded_iff.1 hsucceeded⟩

end Machine

/-! ## Command lines -/

namespace Arguments

/-- The word that names a subcommand. -/
def Subcommand.text : Subcommand → String
  | .list => "list"
  | .report => "show"
  | .resolve => "resolve"
  | .nearest => "nearest"
  | .lookup => "lookup"
  | .create => "create"
  | .delete => "delete"
  | .snapshot => "snapshot"
  | .setDefault => "set-default"

theorem Subcommand.text_of_ofText? {name : String} {subcommand : Subcommand}
    (h : ofText? name = some subcommand) : subcommand.text = name := by
  rw [ofText?.eq_def] at h
  split at h <;> cases h <;> rfl

/-- A subcommand is for the actions that its word asks for. -/
theorem Subcommand.verb_of_action? {subcommand : Subcommand} {level : Level} {action : Action}
    (h : subcommand.action? level = some action) : action.verb = subcommand.text := by
  revert h
  fun_cases action? subcommand level <;> rintro ⟨⟩ <;> rfl

/-- The word of a command line that says what is to be done. -/
def subcommandName? (words : List String) : Option String :=
  (readOuter OptionName.forTools words).bind fun (_, rest) => rest.head?

/-- What is to be done is what the word says. -/
theorem subcommandName?_of_parse? {words : List String} {arguments : Arguments}
    (h : parse? words = some arguments) :
    subcommandName? words = some arguments.action.verb := by
  simp only [parse?, bind, Option.bind_eq_some_iff] at h
  obtain ⟨⟨outer, rest⟩, houter, h⟩ := h
  cases rest with
  | nil => contradiction
  | cons name rest =>
    simp only [Option.bind_eq_some_iff] at h
    obtain ⟨subcommand, hname, inner, -, action, haction, h⟩ := h
    split at h
    · obtain rfl := Option.some.inj h
      rw [Subcommand.verb_of_action? haction, Subcommand.text_of_ofText? hname, subcommandName?,
        houter]
      rfl
    · contradiction

end Arguments

/-! ## Runs -/

namespace Machine

/-- A run makes the change that its command line asks for. -/
def RunChanges (machine : Machine τ) (env : Environment) (words : List String) (state : τ)
    (before : List Launch) (launch : Launch) (after : List Launch) : Prop :=
  ∃ arguments tools criteria change fs mutation,
    Arguments.parse? words = some arguments ∧ CommandLine.prepare env arguments = .ok tools ∧
      arguments.action = .carryOut criteria change ∧
      machine.ChangesSelected tools criteria change state fs mutation before launch after

/-- A run ends before its action with a status of failure, having started nothing, or it is the
action of its command line. -/
theorem run_cases (machine : Machine τ) (env : Environment) (words : List String) (state : τ) :
    (∃ verdict : Verdict, verdict.status ≠ 0 ∧
      machine.run env words state = (verdict, ⟨state, []⟩) ∧
      ∀ arguments, Arguments.parse? words = some arguments →
        ∀ tools, CommandLine.prepare env arguments ≠ .ok tools) ∨
    ∃ arguments tools, Arguments.parse? words = some arguments ∧
      CommandLine.prepare env arguments = .ok tools ∧
      machine.run env words state = machine.act tools arguments.action state := by
  cases hparse : Arguments.parse? words with
  | none =>
    refine .inl ⟨.misused, Nat.succ_ne_zero 1, ?_, fun _ h => absurd h.symm (Option.some_ne_none _)⟩
    rw [run, CommandLine.execute, hparse]
    rfl
  | some arguments =>
    cases hprepare : CommandLine.prepare env arguments with
    | error failure =>
      refine .inl ⟨.failed failure, Nat.one_ne_zero, ?_, ?_⟩
      · simp only [run, CommandLine.execute, hparse, Arguments.execute, hprepare]
        rfl
      · intro arguments' h tools
        obtain rfl := Option.some.inj h
        simp [hprepare]
    | ok tools =>
      refine .inr ⟨arguments, tools, rfl, hprepare, ?_⟩
      simp only [run, CommandLine.execute, hparse, Arguments.execute, hprepare]
      rfl

/-- A run of a command line starts at most one command that changes anything. It starts one only if
its subcommand asks for that command, one filesystem alone matches among those discovered, and the
paths stand for the mutation of it; before come the commands of the discovery, and behind come those
of one refresh if the command has exited with status 0, and none otherwise. Every other subcommand
starts none. A run that was asked for a change and exits with status 0 has started the command, and
it has exited with status 0. A run with another status prints nothing. And a run does start the
command of a change if one filesystem alone matches, the paths stand for a mutation of it, and no
word of the command has a NUL character. -/
theorem run_changes_at_most_once (machine : Machine τ) (env : Environment) (words : List String)
    (state : τ) :
    let (verdict, recorded) := machine.run env words state
    recorded.launches.countP (fun launch => launch.invocation.mutates) ≤ 1 ∧
    (∀ before launch after, recorded.launches = before ++ launch :: after →
      launch.invocation.mutates →
        machine.RunChanges env words state before launch after ∧
        ∃ name ∈ mutatingVerbs, Arguments.subcommandName? words = some name ∧
          ["subvolume", name] <+: launch.invocation.arguments) ∧
    (∀ name ∉ mutatingVerbs, Arguments.subcommandName? words = some name →
      ∀ launch ∈ recorded.launches, launch.invocation.mutates = false) ∧
    (∀ name ∈ mutatingVerbs, Arguments.subcommandName? words = some name → verdict.status = 0 →
      ∃ launch ∈ recorded.launches, ["subvolume", name] <+: launch.invocation.arguments ∧
        ∃ finished, launch.result = .ok finished ∧ finished.status = some 0) ∧
    (verdict.status ≠ 0 → verdict.stdout = "") ∧
    ∀ arguments tools criteria change fs mutation, Arguments.parse? words = some arguments →
      CommandLine.prepare env arguments = .ok tools →
      arguments.action = .carryOut criteria change → machine.Selects tools criteria state fs →
      fs.Resolves change mutation → (tools.mutation mutation).hasNul = false →
        ∃ launch ∈ recorded.launches, launch.invocation = tools.mutation mutation := by
  rcases machine.run_cases env words state with
    ⟨verdict, hstatus, hrun, hends⟩ | ⟨arguments, tools, hparse, hprepare, hrun⟩
  · rw [hrun]
    refine ⟨Nat.zero_le 1, fun before launch after hnone => ?_, fun _ _ _ => ?_,
      fun _ _ _ hzero => absurd hzero hstatus, Verdict.stdout_of_status_ne_zero, ?_⟩
    · exact absurd hnone.symm (List.append_ne_nil_of_right_ne_nil before (List.cons_ne_nil _ _))
    · exact fun _ h => absurd h List.not_mem_nil
    · intro arguments tools _ _ _ _ hparse hprepare
      exact absurd hprepare (hends arguments hparse tools)
  · have hword := Arguments.subcommandName?_of_parse? hparse
    have hacts := machine.act_changes_at_most_once tools arguments.action state
    rcases hact : machine.act tools arguments.action state with ⟨verdict, recorded⟩
    rw [hact] at hrun hacts
    rw [hrun]
    obtain ⟨honce, hchanges, hlooks, hdone, hsilent, hstarts⟩ := hacts
    refine ⟨honce, fun before launch after hlaunches hmutates => ?_, fun name hname hname' => ?_,
      fun name hname hname' => ?_, hsilent, ?_⟩
    · obtain ⟨⟨criteria, change, fs, mutation, haction, hchanged⟩, hverb, hprefix⟩ :=
        hchanges before launch after hlaunches hmutates
      exact ⟨⟨arguments, tools, criteria, change, fs, mutation, hparse, hprepare, haction,
        hchanged⟩, arguments.action.verb, hverb, hword, hprefix⟩
    · obtain rfl := Option.some.inj (hword.symm.trans hname')
      exact hlooks hname
    · obtain rfl := Option.some.inj (hword.symm.trans hname')
      exact hdone hname
    · intro arguments' tools' criteria change fs mutation hparse' hprepare'
      obtain rfl := Option.some.inj (hparse.symm.trans hparse')
      obtain rfl := Except.ok.inj (hprepare.symm.trans hprepare')
      exact hstarts criteria change fs mutation

/-- A machine with one filesystem, on which every change succeeds. -/
def creating : Machine Unit where
  launch invocation _ := (.ok ⟨some 0, Utf8.encode (printed invocation.arguments).toList, []⟩, ())
  follow device _ := (device, ())
where
  printed : List String → String
    | ["filesystem", "show", "-d"] => "Label: none  uuid: 1111\ndevid 1 path /dev/sda\n"
    | ["-t", "btrfs", "-nvP"] =>
      "TARGET=\"/mnt\" SOURCE=\"/dev/sda\" FSTYPE=\"btrfs\" OPTIONS=\"subvolid=5,subvol=/\"\n"
    | ["subvolume", "get-default", "/mnt"] => "ID 5 (FS_TREE)\n"
    | _ => ""

example :
    let env : Environment := ⟨none, fun _ => .error .notFound, fun name => some ⟨name⟩⟩
    let (verdict, recorded) := creating.run env ["create", "--uuid", "1111", "x"] ()
    verdict = .printed "\x7b\"path\":\"/mnt/x\",\"success\":true\x7d" ∧
      recorded.launches.map (fun launch => launch.invocation.describe) =
        ["btrfs filesystem show -d", "findmnt -t btrfs -nvP", "btrfs subvolume list -tap /mnt",
          "btrfs subvolume get-default /mnt", "btrfs subvolume create /mnt/x",
          "findmnt -t btrfs -nvP", "btrfs subvolume list -tap /mnt",
          "btrfs subvolume get-default /mnt"] := by
  decide +kernel

end Machine

end BtrfsTopology
