import BtrfsTopology.Host.Request

/-!
# Dialogues with the host

A dialogue asks the host one request after the other, each depending on the replies so far, and ends
with a value. It is data: the same dialogue can be led with the tools of a machine and with any host
that is given by a function.

## Main definitions

* `Dialogue` — a dialogue that ends with a value
* `Dialogue.lead` — leading a dialogue in a monad
* `Dialogue.run` — leading a dialogue with a host that has a state, with the requests made
* `Query` — a dialogue that can fail
* `Update` — a dialogue that can fail and changes a state, and that keeps the changes made before it
  failed

## Main results

* `Dialogue.run_bind` — one dialogue is led after the other
* `Dialogue.lead_eq_run` — the two ways to lead a dialogue agree
-/

namespace BtrfsTopology

/-- A dialogue with the host that ends with a value. -/
inductive Dialogue (α : Type) : Type where
  | done (value : α)
  /-- It asks a request and goes on as the reply says. -/
  | ask (request : Request) (next : request.Reply → Dialogue α)

namespace Dialogue

variable {α β σ : Type}

/-- One dialogue after another. -/
def bind (d : Dialogue α) (f : α → Dialogue β) : Dialogue β :=
  match d with
  | .done value => f value
  | .ask request next => .ask request fun reply => (next reply).bind f

instance : Monad Dialogue where
  pure := .done
  bind := Dialogue.bind

/-- The dialogue of one request. -/
def request (r : Request) : Dialogue r.Reply :=
  .ask r .done

/-- Leads a dialogue, each request being answered in a monad. -/
def lead {m : Type → Type} [Monad m] (answer : (r : Request) → m r.Reply) : Dialogue α → m α
  | .done value => pure value
  | .ask r next => do
    let reply ← answer r
    (next reply).lead answer

/-- A host with a state, given by its replies. -/
abbrev Host (σ : Type) := (r : Request) → σ → r.Reply × σ

/-- How a dialogue went. -/
structure Outcome (α σ : Type) where
  value : α
  requests : List Request
  /-- The state in which it left the host. -/
  host : σ

/-- Leads a dialogue with a host. -/
def run (host : Host σ) : Dialogue α → σ → Outcome α σ
  | .done value, state => ⟨value, [], state⟩
  | .ask r next, state =>
    let (reply, state) := host r state
    let rest := (next reply).run host state
    ⟨rest.value, r :: rest.requests, rest.host⟩

/-! ## Laws -/

theorem pure_eq_done (value : α) : (pure value : Dialogue α) = .done value := rfl

theorem bind_ask (r : Request) (next : r.Reply → Dialogue α) (f : α → Dialogue β) :
    (.ask r next >>= f) = .ask r fun reply => next reply >>= f := rfl

private theorem bind_pure_eq (d : Dialogue α) : d.bind .done = d := by
  induction d with
  | done value => rfl
  | ask r next ih => exact congrArg (Dialogue.ask r) (funext ih)

private theorem bind_assoc_eq {γ : Type} (d : Dialogue α) (f : α → Dialogue β)
    (g : β → Dialogue γ) : (d.bind f).bind g = d.bind fun value => (f value).bind g := by
  induction d with
  | done value => rfl
  | ask r next ih => exact congrArg (Dialogue.ask r) (funext ih)

instance : LawfulMonad Dialogue :=
  LawfulMonad.mk' Dialogue bind_pure_eq (fun _ _ => rfl) bind_assoc_eq

/-- One dialogue after another makes the requests of the two in turn. -/
theorem run_bind (host : Host σ) (d : Dialogue α) (f : α → Dialogue β) (state : σ) :
    (d >>= f).run host state =
      let first := d.run host state
      let second := (f first.value).run host first.host
      ⟨second.value, first.requests ++ second.requests, second.host⟩ := by
  induction d generalizing state with
  | done value => rfl
  | ask r next ih =>
    rw [bind_ask]
    simp only [run, ih, List.cons_append]

/-- Leading a dialogue with a host that keeps its state in a monad is running it. -/
theorem lead_eq_run (host : Host σ) (d : Dialogue α) (state : σ) :
    (d.lead (m := StateM σ) fun r => host r).run state =
      ((d.run host state).value, (d.run host state).host) := by
  induction d generalizing state with
  | done value => rfl
  | ask r next ih => exact ih _ _

end Dialogue

/-- A dialogue that can fail. -/
abbrev Query := ExceptT TopologyError Dialogue

/-- A dialogue that can fail and changes a state. -/
abbrev Update (σ : Type) := ExceptT TopologyError (StateT σ Dialogue)

/-- Runs a command that lists something. -/
def Query.inspect (query : Inspection) : Query CommandOutput :=
  ExceptT.mk (Dialogue.request (.inspect query))

/-- Runs a command that changes something. -/
def Query.mutate (change : Mutation) : Query Unit :=
  ExceptT.mk (Dialogue.request (.mutate change))

/-- Follows the links of a device. -/
def Query.resolveDevice (device : VfsPath) : Query VfsPath :=
  ExceptT.lift (Dialogue.request (.resolveDevice device))

/-- The value of a computation that asks nothing. -/
def Query.ofExcept {α : Type} (result : Except TopologyError α) : Query α :=
  ExceptT.mk (pure result)

/-- A query leaves the state as it is. -/
def Update.ofQuery {α σ : Type} (query : Query α) : Update σ α :=
  ExceptT.mk fun state => do
    let result ← query.run
    return (result, state)

instance {σ : Type} : MonadLift Query (Update σ) := ⟨Update.ofQuery⟩

/-- The state that an update leaves when it succeeds. -/
def Update.final {α σ : Type} (update : Update σ α) (state : σ) : Query σ :=
  ExceptT.mk do
    let (result, state) ← update.run.run state
    return result.map fun _ => state

end BtrfsTopology
