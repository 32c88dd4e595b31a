import BtrfsTopology.CommandLine.Run
import BtrfsTopology.Proofs.ChangeOutcome

/-!
# What a machine is made to start

A machine starts programs and follows links, and is changed by both in any way. Every launch is
recorded with its result, so that what a dialogue did to the machine can be told afterwards: it
started the commands that its requests stand for, in their order, except for those that have a NUL
character.

## Main definitions

* `Invocation.mutates` — whether a command changes something
* `Machine`, `Launch`, `Recorded` — a machine, and the record of what it started
* `Machine.host` — the host that a machine is for dialogues, given the tools
* `Machine.act`, `Machine.run` — an action performed and a command line run on a machine
* `Machine.Makes` — what a mutation and the refresh behind it start

## Main results

* `Machine.run_prepend` — what was recorded before does not matter
* `Machine.map_invocation_launches` — what is started is what is asked for
* `Machine.carryOut_launches` — what a change starts
-/

namespace BtrfsTopology

/-! ## Commands that change something -/

/-- The commands by which subvolumes are changed. -/
def mutatingVerbs : List String :=
  ["create", "delete", "snapshot", "set-default"]

/-- Whether a command changes subvolumes. -/
def Invocation.mutates (invocation : Invocation) : Bool :=
  match invocation.arguments with
  | group :: verb :: _ => group = "subvolume" && mutatingVerbs.contains verb
  | _ => false

theorem Tools.mutates_inspection (tools : Tools) (query : Inspection) :
    (tools.inspection query).mutates = false := by
  cases query <;> rfl

theorem Tools.mutates_mutation (tools : Tools) (change : Mutation) :
    (tools.mutation change).mutates = true := by
  cases change <;> rfl

/-- The command itself, if it can be started. -/
def Invocation.startable? (invocation : Invocation) : Option Invocation :=
  if invocation.hasNul then none else some invocation

/-- The command that a request stands for, if it can be started. -/
def Request.command? (tools : Tools) : Request → Option Invocation
  | .inspect query => (tools.inspection query).startable?
  | .mutate change => (tools.mutation change).startable?
  | .resolveDevice _ => none

/-- The request changes nothing. -/
def Request.IsHarmless (request : Request) : Prop :=
  ∀ change, request ≠ .mutate change

theorem Request.IsInspection.isHarmless {request : Request} (h : request.IsInspection) :
    request.IsHarmless := by
  obtain ⟨query, rfl⟩ := h
  nofun

/-- Only a mutation stands for a command that changes something. -/
theorem Request.IsHarmless.not_mutates {tools : Tools} {request : Request} {command : Invocation}
    (h : request.IsHarmless) (hcommand : request.command? tools = some command) :
    command.mutates = false := by
  cases request with
  | inspect query =>
    rw [command?, Invocation.startable?] at hcommand
    split at hcommand
    · contradiction
    · rw [← Option.some.inj hcommand]
      exact tools.mutates_inspection query
  | mutate change => exact absurd rfl (h change)
  | resolveDevice device => contradiction

/-! ## Machines -/

/-- A machine with a state. -/
structure Machine (τ : Type) where
  /-- Starts a program and waits for its end. -/
  launch : Invocation → τ → Except SystemFault Finished × τ
  /-- Follows the links of a device. -/
  follow : VfsPath → τ → VfsPath × τ

/-- A program that was to be started, with what became of it. -/
structure Launch where
  invocation : Invocation
  result : Except SystemFault Finished

namespace Launch

/-- Whether a program was started and exited with status 0. -/
def succeeded (launch : Launch) : Bool :=
  match launch.result with
  | .ok finished => finished.status = some 0
  | .error _ => false

theorem succeeded_iff {launch : Launch} :
    launch.succeeded ↔ ∃ finished, launch.result = .ok finished ∧ finished.status = some 0 := by
  rw [succeeded]
  split
  · next heq => simp [heq]
  · next heq => simp [heq]

/-- The reply to the request for a command. -/
def reply (launch : Launch) : Except TopologyError CommandOutput :=
  match launch.result with
  | .ok finished => .ok (launch.invocation.output finished)
  | .error fault => .error (.system fault)

/-- A change is acknowledged if its command exited with status 0. -/
theorem acknowledged_iff {launch : Launch} :
    launch.reply.bind CommandOutput.acknowledged = .ok () ↔ launch.succeeded := by
  obtain ⟨invocation, result⟩ := launch
  cases result with
  | error fault => simp [reply, succeeded, Except.bind]
  | ok finished =>
    have hstatus : finished.status.getD (-1) = 0 ↔ finished.status = some 0 := by
      cases finished.status <;> simp
    simp only [reply, Except.bind, CommandOutput.acknowledged, CommandOutput.succeeded,
      Invocation.output, succeeded, hstatus]
    split <;> simp_all

end Launch

/-- The state of a machine with what it has started. -/
structure Recorded (τ : Type) where
  machine : τ
  launches : List Launch

/-- The record with launches that were made before. -/
def Recorded.prepend {τ : Type} (before : List Launch) (recorded : Recorded τ) : Recorded τ :=
  { recorded with launches := before ++ recorded.launches }

namespace Machine

variable {τ α : Type} (machine : Machine τ) (tools : Tools)

/-- Starts a program, with the state after its end. -/
def start (invocation : Invocation) (state : τ) : Launch × τ :=
  let (result, later) := machine.launch invocation state
  (⟨invocation, result⟩, later)

/-- Starts a program and records it. -/
def launchRecorded (invocation : Invocation) :
    StateM (Recorded τ) (Except SystemFault Finished) := fun recorded =>
  let (launch, later) := machine.start invocation recorded.machine
  (launch.result, ⟨later, recorded.launches ++ [launch]⟩)

/-- Follows the links of a device, of which nothing is recorded. -/
def followRecorded (device : VfsPath) : StateM (Recorded τ) VfsPath := fun recorded =>
  let (target, later) := machine.follow device recorded.machine
  (target, { recorded with machine := later })

/-- The host that a machine is with tools. -/
def host : Dialogue.Host (Recorded τ) := fun request =>
  tools.answer machine.launchRecorded machine.followRecorded request

/-- Performs an action on a machine that has started nothing yet. -/
def act (action : Action) (state : τ) : Verdict × Recorded τ :=
  (action.execute machine.launchRecorded machine.followRecorded tools).run ⟨state, []⟩

/-- Runs a command line on a machine that has started nothing yet. -/
def run (env : Environment) (words : List String) (state : τ) : Verdict × Recorded τ :=
  (CommandLine.execute env machine.launchRecorded machine.followRecorded words).run ⟨state, []⟩

/-- The mutation is started on a machine; if it succeeds, a refresh of the filesystem follows. -/
structure Makes (fs : Filesystem) (mutation : Mutation) (state : τ) (launch : Launch)
    (after : List Launch) : Prop where
  launch_eq : launch = (machine.start (tools.mutation mutation) state).1
  after_eq : after =
    if launch.succeeded then
      (Filesystem.refresh.outcome fs (machine.host tools)
        ⟨(machine.start (tools.mutation mutation) state).2, []⟩).host.launches
    else []

variable {machine tools} {recorded : Recorded τ}

/-! ## One request -/

/-- A command with a NUL character is not started. -/
theorem start_of_hasNul {invocation : Invocation} (h : invocation.hasNul) :
    Tools.start machine.launchRecorded invocation recorded =
      (.error (.system .nulInCommand), recorded) := by
  rw [Tools.start, if_pos h]
  rfl

/-- Any other command is. -/
theorem start_of_not_hasNul {invocation : Invocation} (h : invocation.hasNul = false) :
    Tools.start machine.launchRecorded invocation recorded =
      let (launch, later) := machine.start invocation recorded.machine
      (launch.reply, ⟨later, recorded.launches ++ [launch]⟩) := by
  rw [Tools.start, if_neg (by simp [h])]
  simp only [bind, StateT.bind, launchRecorded, Launch.reply, start]
  cases (machine.launch invocation recorded.machine).1 <;> rfl

theorem host_mutate (change : Mutation) :
    machine.host tools (.mutate change) recorded =
      let (result, later) := Tools.start machine.launchRecorded (tools.mutation change) recorded
      (result.bind CommandOutput.acknowledged, later) :=
  rfl

/-- What was recorded before does not matter to a command. -/
theorem start_prepend (invocation : Invocation) (before : List Launch) :
    Tools.start machine.launchRecorded invocation (recorded.prepend before) =
      let (reply, later) := Tools.start machine.launchRecorded invocation recorded
      (reply, later.prepend before) := by
  cases h : invocation.hasNul with
  | true => simp only [start_of_hasNul h]
  | false => simp only [start_of_not_hasNul h, Recorded.prepend, List.append_assoc]

theorem host_prepend (request : Request) (before : List Launch) :
    machine.host tools request (recorded.prepend before) =
      let (reply, later) := machine.host tools request recorded
      (reply, later.prepend before) := by
  cases request with
  | inspect query => exact start_prepend _ before
  | mutate change =>
    rw [host_mutate, start_prepend]
    rfl
  | resolveDevice device => rfl

/-- A command is started unless it has a NUL character. -/
theorem map_invocation_start (invocation : Invocation) :
    (Tools.start machine.launchRecorded invocation recorded).2.launches.map Launch.invocation =
      recorded.launches.map Launch.invocation ++
        invocation.startable?.toList := by
  cases h : invocation.hasNul with
  | true => simp [start_of_hasNul h, Invocation.startable?, h]
  | false => simp [start_of_not_hasNul h, Invocation.startable?, h, start]

theorem map_invocation_host (request : Request) :
    (machine.host tools request recorded).2.launches.map Launch.invocation =
      recorded.launches.map Launch.invocation ++ (request.command? tools).toList := by
  cases request with
  | inspect query => exact map_invocation_start _
  | mutate change => exact map_invocation_start _
  | resolveDevice device => simp [host, Tools.answer, followRecorded, Request.command?]

/-! ## Dialogues -/

/-- What was recorded before does not matter. -/
theorem run_prepend (d : Dialogue α) (before : List Launch) (recorded : Recorded τ) :
    d.run (machine.host tools) (recorded.prepend before) =
      let went := d.run (machine.host tools) recorded
      ⟨went.value, went.requests, went.host.prepend before⟩ := by
  induction d generalizing recorded with
  | done value => rfl
  | ask request next ih => simp only [Dialogue.run, host_prepend, ih]

theorem outcome_prepend {σ : Type} (update : Update σ α) (start : σ) (before : List Launch)
    (recorded : Recorded τ) :
    update.outcome start (machine.host tools) (recorded.prepend before) =
      let went := update.outcome start (machine.host tools) recorded
      ⟨went.value, went.requests, went.host.prepend before⟩ :=
  run_prepend _ before recorded

/-- What is started is what is asked for, in its order, but for what cannot be started. -/
theorem map_invocation_launches (d : Dialogue α) (recorded : Recorded τ) :
    (d.run (machine.host tools) recorded).host.launches.map Launch.invocation =
      recorded.launches.map Launch.invocation ++
        (d.run (machine.host tools) recorded).requests.filterMap (Request.command? tools) := by
  induction d generalizing recorded with
  | done value => simp [Dialogue.run]
  | ask request next ih =>
    simp only [Dialogue.run, ih, map_invocation_host, List.filterMap_cons, List.append_assoc]
    cases request.command? tools <;> rfl

/-- What asks for no mutation starts none. -/
theorem not_mutates_of_asks {d : Dialogue α} {state : τ}
    (h : ∀ r ∈ (d.run (machine.host tools) ⟨state, []⟩).requests, r.IsHarmless) :
    ∀ launch ∈ (d.run (machine.host tools) ⟨state, []⟩).host.launches,
      launch.invocation.mutates = false := by
  intro launch hlaunch
  -- Behind every launch there is a request, and it would be a mutation if it changed something.
  have hstarted := List.mem_map_of_mem (f := Launch.invocation) hlaunch
  rw [map_invocation_launches, List.map_nil, List.nil_append] at hstarted
  obtain ⟨request, hrequest, hcommand⟩ := List.mem_filterMap.1 hstarted
  exact (h request hrequest).not_mutates hcommand

/-! ## Changes -/

theorem host_mutate_of_hasNul {mutation : Mutation} (h : (tools.mutation mutation).hasNul) :
    machine.host tools (.mutate mutation) recorded =
      (.error (.system .nulInCommand), recorded) := by
  rw [host_mutate, start_of_hasNul h]
  rfl

theorem host_mutate_of_not_hasNul {mutation : Mutation}
    (h : (tools.mutation mutation).hasNul = false) :
    machine.host tools (.mutate mutation) recorded =
      let (launch, later) := machine.start (tools.mutation mutation) recorded.machine
      (launch.reply.bind CommandOutput.acknowledged, ⟨later, recorded.launches ++ [launch]⟩) := by
  rw [host_mutate, start_of_not_hasNul h]

/-- A mutation that can be started is made. If its command does not exit with status 0 it has
failed, and so has the change. -/
theorem carryOut_launches_of_startable {fs : Filesystem} {change : Change} {mutation : Mutation}
    (hplan : fs.plan change = .ok mutation) (hnul : (tools.mutation mutation).hasNul = false) :
    let went := (Filesystem.carryOut change).outcome fs (machine.host tools) recorded
    ∃ launch after, machine.Makes tools fs mutation recorded.machine launch after ∧
      went.host.launches = recorded.launches ++ launch :: after ∧
      (launch.succeeded = false → ∃ e, went.value.1 = .error e) := by
  intro went
  have hhost : machine.host tools (.mutate mutation) recorded = _ := host_mutate_of_not_hasNul hnul
  rcases hstart : machine.start (tools.mutation mutation) recorded.machine with ⟨launch, later⟩
  rw [hstart] at hhost
  cases hreply : launch.reply.bind CommandOutput.acknowledged with
  | error e =>
    have hfailed : launch.succeeded = false := by
      rw [← Bool.not_eq_true, ← Launch.acknowledged_iff, hreply]
      nofun
    simp only [hreply] at hhost
    have hwent : went = _ := Filesystem.outcome_carryOut_of_refused hplan hhost
    refine ⟨launch, [], ⟨by rw [hstart], ?_⟩, by rw [hwent], fun _ => ⟨e, by rw [hwent]⟩⟩
    rw [hfailed]
    rfl
  | ok acknowledged =>
    have hdone : launch.succeeded = true := Launch.acknowledged_iff.1 hreply
    simp only [hreply] at hhost
    have hwent : went = _ := Filesystem.outcome_carryOut_of_done hplan hhost
    -- The refresh goes on with a record that ends with the launch of the mutation.
    have hrefresh : Filesystem.refresh.outcome fs (machine.host tools) _ = _ :=
      outcome_prepend Filesystem.refresh fs (recorded.launches ++ [launch]) ⟨later, []⟩
    simp only [Recorded.prepend, List.append_nil] at hrefresh
    refine ⟨launch, _, ⟨by rw [hstart], rfl⟩, ?_, fun hfailed => ?_⟩
    · rw [hwent, hrefresh, hdone, if_pos rfl, hstart, List.append_assoc, List.singleton_append]
    · simp [hdone] at hfailed

/-- A change fails and starts nothing, or its mutation is made. -/
theorem carryOut_launches (fs : Filesystem) (change : Change) (recorded : Recorded τ) :
    let went := (Filesystem.carryOut change).outcome fs (machine.host tools) recorded
    ((∃ e, went.value.1 = .error e) ∧ went.host.launches = recorded.launches) ∨
      ∃ mutation launch after, fs.Resolves change mutation ∧
        machine.Makes tools fs mutation recorded.machine launch after ∧
        went.host.launches = recorded.launches ++ launch :: after ∧
        (launch.succeeded = false → ∃ e, went.value.1 = .error e) := by
  intro went
  -- There may be nothing to start, or something that cannot be started.
  rcases fs.resolves_or_plan_error change with ⟨mutation, hresolves⟩ | ⟨e, -, hplan⟩
  · cases hnul : (tools.mutation mutation).hasNul with
    | true =>
      have hwent : went = _ := Filesystem.outcome_carryOut_of_refused hresolves.plan_eq
        (host_mutate_of_hasNul hnul)
      exact .inl ⟨⟨_, by rw [hwent]⟩, by rw [hwent]⟩
    | false =>
      obtain ⟨launch, after, hmade⟩ := carryOut_launches_of_startable hresolves.plan_eq hnul
      exact .inr ⟨mutation, launch, after, hresolves, hmade⟩
  · have hwent : went = _ := Filesystem.outcome_carryOut_of_plan_error hplan
    exact .inl ⟨⟨e, by rw [hwent]⟩, by rw [hwent]⟩

/-- What a mutation makes begins with its command and goes on with commands that change nothing. -/
theorem Makes.not_mutates {fs : Filesystem} {mutation : Mutation} {state : τ} {launch : Launch}
    {after : List Launch} (h : machine.Makes tools fs mutation state launch after) :
    launch.invocation = tools.mutation mutation ∧
      ∀ other ∈ after, other.invocation.mutates = false := by
  refine ⟨by rw [h.launch_eq]; rfl, fun other hother => ?_⟩
  rw [h.after_eq] at hother
  split at hother
  · have hasks := Filesystem.asks_refresh _ (machine.host tools)
      ⟨(machine.start (tools.mutation mutation) state).2, []⟩ fs
    exact not_mutates_of_asks (fun r hr => (hasks r hr).isHarmless) other hother
  · exact absurd hother List.not_mem_nil

end Machine

end BtrfsTopology
