import BtrfsTopology.Host.Dialogue

/-!
# Outcomes of queries and updates

What became of an update that was made with a host: its result, the state it left, the requests it
made and the host afterwards. An update that fails ends there and keeps the state reached so far.

## Main definitions

* `Query.outcome`, `Update.outcome` — how a query or an update went
* `Update.Preserves` — the state keeps a property, whatever the host replies
* `Update.Asks`, `Query.Asks` — all requests have a property, whatever the host replies
* `Query.Yields` — the value has a property, whatever the host replies
* `Exchange`, `Query.exchanges`, `Update.exchanges` — the requests made and the replies they got

## Main results

* `Update.outcome_bind_ok`, `Update.outcome_bind_error` — one update after another
* `Update.Preserves.bind`, `Update.Asks.bind`, `Query.Yields.bind` — the properties of the parts are
  properties of the whole
* `Update.outcome_final`, `Update.final_ofQuery_bind` — the state that an update leaves
* `Query.bind_eq_ok_iff`, `Query.exchanges_bind` — one query after another
-/

namespace BtrfsTopology

variable {α β σ τ : Type}

/-- How a query went. -/
def Query.outcome (query : Query α) (host : Dialogue.Host τ) (state : τ) :
    Dialogue.Outcome (Except TopologyError α) τ :=
  (ExceptT.run query).run host state

/-- How an update of a state went. -/
def Update.outcome (update : Update σ α) (start : σ) (host : Dialogue.Host τ) (state : τ) :
    Dialogue.Outcome (Except TopologyError α × σ) τ :=
  ((ExceptT.run update).run start).run host state

/-! ## Queries -/

namespace Query

variable {host : Dialogue.Host τ} {state state' : τ} {requests : List Request}

theorem outcome_bind_ok {query : Query α} {next : α → Query β} {value : α}
    (h : query.outcome host state = ⟨.ok value, requests, state'⟩) :
    Query.outcome (query >>= next) host state =
      let rest := (next value).outcome host state'
      ⟨rest.value, requests ++ rest.requests, rest.host⟩ := by
  rw [outcome] at h
  rw [outcome, ExceptT.run_bind, Dialogue.run_bind, h]
  rfl

theorem outcome_bind_error {query : Query α} {next : α → Query β} {e : TopologyError}
    (h : query.outcome host state = ⟨.error e, requests, state'⟩) :
    Query.outcome (query >>= next) host state = ⟨.error e, requests, state'⟩ := by
  rw [outcome] at h
  rw [outcome, ExceptT.run_bind, Dialogue.run_bind, h]
  simp [Dialogue.pure_eq_done, Dialogue.run]

/-- One query after another has a value when both have. -/
theorem bind_eq_ok_iff {query : Query α} {next : α → Query β} {b : β} :
    (Query.outcome (query >>= next) host state).value = .ok b ↔
      ∃ a, (query.outcome host state).value = .ok a ∧
        ((next a).outcome host (query.outcome host state).host).value = .ok b := by
  rcases hquery : query.outcome host state with ⟨result, requests, state'⟩
  cases result with
  | error e => simp [outcome_bind_error hquery]
  | ok a => simp [outcome_bind_ok hquery]

theorem pure_eq_ok_iff {a b : α} :
    (Query.outcome (pure a) host state).value = .ok b ↔ a = b :=
  ⟨Except.ok.inj, congrArg Except.ok⟩

theorem outcome_inspect (query : Inspection) :
    (Query.inspect query).outcome host state =
      ⟨(host (.inspect query) state).1, [.inspect query], (host (.inspect query) state).2⟩ :=
  rfl

theorem outcome_mutate (change : Mutation) :
    (Query.mutate change).outcome host state =
      ⟨(host (.mutate change) state).1, [.mutate change], (host (.mutate change) state).2⟩ :=
  rfl

/-- Every request of the query satisfies `p`, whatever a host replies. -/
def Asks (p : Request → Prop) (query : Query α) : Prop :=
  ∀ (τ : Type) (host : Dialogue.Host τ) (state : τ), ∀ r ∈ (query.outcome host state).requests, p r

/-- A value of the query satisfies `p`, whatever a host replies. -/
def Yields (p : α → Prop) (query : Query α) : Prop :=
  ∀ (τ : Type) (host : Dialogue.Host τ) (state : τ) (value : α),
    (query.outcome host state).value = .ok value → p value

variable {p : Request → Prop}

theorem asks_ofExcept (result : Except TopologyError α) : Asks p (Query.ofExcept result) :=
  fun _ _ _ _ h => absurd h List.not_mem_nil

theorem asks_pure (value : α) : Asks p (pure value) :=
  asks_ofExcept (.ok value)

theorem asks_inspect {query : Inspection} (h : p (.inspect query)) :
    Asks p (Query.inspect query) := by
  intro τ host state r hr
  rw [outcome_inspect] at hr
  obtain rfl := List.mem_singleton.1 hr
  exact h

theorem Asks.bind {query : Query α} {next : α → Query β} (h : query.Asks p)
    (hnext : ∀ value, (next value).Asks p) : Asks p (query >>= next) := by
  intro τ host state r hr
  have hfirst := h τ host state
  rcases hquery : query.outcome host state with ⟨result, requests, state'⟩
  rw [hquery] at hfirst
  cases result with
  | error e =>
    rw [outcome_bind_error hquery] at hr
    exact hfirst r hr
  | ok value =>
    rw [outcome_bind_ok hquery] at hr
    rcases List.mem_append.1 hr with hr | hr
    · exact hfirst r hr
    · exact hnext value τ host state' r hr

theorem yields_pure {p : α → Prop} {value : α} (h : p value) : Yields p (pure value) := by
  intro τ host state value' hvalue
  obtain rfl := Except.ok.inj hvalue
  exact h

theorem yields_ofExcept {p : α → Prop} {result : Except TopologyError α}
    (h : ∀ value, result = .ok value → p value) : Yields p (Query.ofExcept result) :=
  fun _ _ _ value hvalue => h value hvalue

theorem Yields.bind {p : α → Prop} {q : β → Prop} {query : Query α} {next : α → Query β}
    (h : query.Yields p) (hnext : ∀ value, p value → (next value).Yields q) :
    Yields q (query >>= next) := by
  intro τ host state result hresult
  have hfirst := h τ host state
  rcases hquery : query.outcome host state with ⟨first, requests, state'⟩
  rw [hquery] at hfirst
  cases first with
  | error e =>
    rw [outcome_bind_error hquery] at hresult
    cases hresult
  | ok value =>
    rw [outcome_bind_ok hquery] at hresult
    exact hnext value (hfirst value rfl) τ host state' result hresult

theorem yields_true (query : Query α) : query.Yields fun _ => True :=
  fun _ _ _ _ _ => trivial

end Query

/-! ## Updates -/

namespace Update

variable {host : Dialogue.Host τ} {state state' : τ} {start start' : σ} {requests : List Request}

theorem outcome_bind_ok {update : Update σ α} {next : α → Update σ β} {value : α}
    (h : update.outcome start host state = ⟨(.ok value, start'), requests, state'⟩) :
    Update.outcome (update >>= next) start host state =
      let rest := (next value).outcome start' host state'
      ⟨rest.value, requests ++ rest.requests, rest.host⟩ := by
  rw [outcome] at h
  rw [outcome, ExceptT.run_bind, StateT.run_bind, Dialogue.run_bind, h]
  rfl

theorem outcome_bind_error {update : Update σ α} {next : α → Update σ β} {e : TopologyError}
    (h : update.outcome start host state = ⟨(.error e, start'), requests, state'⟩) :
    Update.outcome (update >>= next) start host state =
      ⟨(.error e, start'), requests, state'⟩ := by
  rw [outcome] at h
  rw [outcome, ExceptT.run_bind, StateT.run_bind, Dialogue.run_bind, h]
  simp [Dialogue.pure_eq_done, Dialogue.run]

theorem outcome_pure (value : α) :
    Update.outcome (pure value) start host state = ⟨(.ok value, start), [], state⟩ :=
  rfl

theorem outcome_get : Update.outcome (get : Update σ σ) start host state =
    ⟨(.ok start, start), [], state⟩ :=
  rfl

/-- The state that is left does not depend on what becomes of the result. -/
theorem state_discard (update : Update σ α) :
    (Update.outcome (do let _ ← update) start host state).value.2 =
      (update.outcome start host state).value.2 := by
  rcases hupdate : update.outcome start host state with ⟨⟨result, start'⟩, requests, state'⟩
  cases result with
  | error e => rw [Update.outcome_bind_error hupdate]
  | ok value =>
    rw [Update.outcome_bind_ok hupdate]
    rfl

/-- A query leaves the state as it is. -/
theorem outcome_ofQuery (query : Query α) :
    (Update.ofQuery query).outcome start host state =
      let asked := query.outcome host state
      ⟨(asked.value, start), asked.requests, asked.host⟩ := by
  rw [outcome, ofQuery, ExceptT.run_mk]
  -- In terms of dialogues, the query is led first, and its result is put beside the state.
  change Dialogue.run host (ExceptT.run query >>= fun result => pure (result, start)) state = _
  rw [Dialogue.run_bind]
  simp [Query.outcome, Dialogue.pure_eq_done, Dialogue.run]

/-- The state keeps the property `p`, whatever a host replies and however the update ends. -/
def Preserves (p : σ → Prop) (update : Update σ α) : Prop :=
  ∀ (τ : Type) (host : Dialogue.Host τ) (state : τ) (start : σ),
    p start → p (update.outcome start host state).value.2

/-- Every request of the update satisfies `p`, whatever a host replies. -/
def Asks (p : Request → Prop) (update : Update σ α) : Prop :=
  ∀ (τ : Type) (host : Dialogue.Host τ) (state : τ) (start : σ),
    ∀ r ∈ (update.outcome start host state).requests, p r

section Preserves

variable {p : σ → Prop}

theorem preserves_pure (value : α) : Preserves p (pure value : Update σ α) :=
  fun _ _ _ _ h => h

theorem preserves_get : Preserves p (get : Update σ σ) :=
  fun _ _ _ _ h => h

theorem preserves_modify {f : σ → σ} (hf : ∀ start, p start → p (f start)) :
    Preserves p (modify f : Update σ PUnit) :=
  fun _ _ _ start h => hf start h

theorem preserves_ofQuery (query : Query α) : Preserves p (Update.ofQuery query : Update σ α) := by
  intro τ host state start h
  rw [outcome_ofQuery]
  exact h

theorem Preserves.bind {update : Update σ α} {next : α → Update σ β} (h : update.Preserves p)
    (hnext : ∀ value, (next value).Preserves p) : Preserves p (update >>= next) := by
  intro τ host state start hstart
  have hfirst := h τ host state start hstart
  rcases hupdate : update.outcome start host state with ⟨⟨result, start'⟩, requests, state'⟩
  rw [hupdate] at hfirst
  cases result with
  | error e =>
    -- The failed update has kept the property, and nothing comes after it.
    rw [outcome_bind_error hupdate]
    exact hfirst
  | ok value =>
    rw [outcome_bind_ok hupdate]
    exact hnext value τ host state' start' hfirst

/-- What comes after a query need preserve the property only for what the query yields. -/
theorem preserves_ofQuery_bind {q : α → Prop} {query : Query α} {next : α → Update σ β}
    (h : query.Yields q) (hnext : ∀ value, q value → (next value).Preserves p) :
    Preserves p (Update.ofQuery query >>= next) := by
  intro τ host state start hstart
  have hquery := h τ host state
  rcases hasked : query.outcome host state with ⟨result, requests, state'⟩
  have hlifted : (Update.ofQuery query).outcome start host state = _ := outcome_ofQuery query
  rw [hasked] at hquery hlifted
  cases result with
  | error e =>
    rw [outcome_bind_error hlifted]
    exact hstart
  | ok value =>
    rw [outcome_bind_ok hlifted]
    exact hnext value (hquery value rfl) τ host state' start hstart

end Preserves

section Asks

variable {p : Request → Prop}

theorem asks_pure (value : α) : Asks p (pure value : Update σ α) :=
  fun _ _ _ _ _ h => absurd h List.not_mem_nil

theorem asks_get : Asks p (get : Update σ σ) :=
  fun _ _ _ _ _ h => absurd h List.not_mem_nil

theorem asks_modify (f : σ → σ) : Asks p (modify f : Update σ PUnit) :=
  fun _ _ _ _ _ h => absurd h List.not_mem_nil

theorem asks_ofQuery {query : Query α} (h : query.Asks p) :
    Asks p (Update.ofQuery query : Update σ α) := by
  intro τ host state start r hr
  rw [outcome_ofQuery] at hr
  exact h τ host state r hr

theorem Asks.bind {update : Update σ α} {next : α → Update σ β} (h : update.Asks p)
    (hnext : ∀ value, (next value).Asks p) : Asks p (update >>= next) := by
  intro τ host state start r hr
  have hfirst := h τ host state start
  rcases hupdate : update.outcome start host state with ⟨⟨result, start'⟩, requests, state'⟩
  rw [hupdate] at hfirst
  cases result with
  | error e =>
    rw [outcome_bind_error hupdate] at hr
    exact hfirst r hr
  | ok value =>
    rw [outcome_bind_ok hupdate] at hr
    rcases List.mem_append.1 hr with hr | hr
    · exact hfirst r hr
    · exact hnext value τ host state' start' r hr

end Asks

/-! ### The state that an update leaves -/

/-- Asking for the state that an update leaves is making the update. -/
theorem outcome_final (update : Update σ α) :
    (update.final start).outcome host state =
      let made := update.outcome start host state
      ⟨made.value.1.map fun _ => made.value.2, made.requests, made.host⟩ := by
  rw [Query.outcome, final, ExceptT.run_mk, Dialogue.run_bind]
  simp [outcome, Dialogue.pure_eq_done, Dialogue.run]

theorem outcome_final_eq_ok_iff {update : Update σ Unit} :
    ((update.final start).outcome host state).value = .ok start' ↔
      (update.outcome start host state).value = (.ok (), start') := by
  rw [outcome_final]
  rcases update.outcome start host state with ⟨⟨result, last⟩, requests, state'⟩
  cases result <;> simp [Except.map]

theorem final_pure (value : α) : (pure value : Update σ α).final start = pure start :=
  rfl

theorem final_get_bind (next : σ → Update σ α) :
    (get >>= next : Update σ α).final start = (next start).final start :=
  rfl

theorem final_modify_bind (f : σ → σ) (next : PUnit → Update σ α) :
    (modify f >>= next : Update σ α).final start = (next ⟨⟩).final (f start) :=
  rfl

theorem final_ofQuery_bind (query : Query α) (next : α → Update σ β) :
    (Update.ofQuery query >>= next).final start =
      query >>= fun value => (next value).final start := by
  apply ExceptT.ext
  rw [final, ExceptT.run_mk, ExceptT.run_bind, ExceptT.run_bind, StateT.run_bind]
  -- In terms of dialogues, the query is led first, and its result is put beside the state.
  change ((ExceptT.run query >>= fun result => pure (result, start)) >>= _) >>= _ = _
  rw [bind_assoc, bind_assoc]
  congr 1
  funext result
  cases result <;> rfl

/-- A query that ends with the state of an update yields what the update preserves. -/
theorem Preserves.yields_final {p : σ → Prop} {update : Update σ α} (h : update.Preserves p)
    (hstart : p start) : (update.final start).Yields p := by
  intro τ host state value hvalue
  have hlast := h τ host state start hstart
  rw [outcome_final] at hvalue
  rcases hupdate : update.outcome start host state with ⟨⟨result, last⟩, requests, state'⟩
  rw [hupdate] at hvalue hlast
  cases result with
  | error e => cases hvalue
  | ok result =>
    obtain rfl := Except.ok.inj hvalue
    exact hlast

theorem Asks.final {p : Request → Prop} {update : Update σ α} (h : update.Asks p) :
    (update.final start).Asks p := by
  intro τ host state r hr
  rw [outcome_final] at hr
  exact h τ host state start r hr

end Update

/-! ## Exchanges -/

/-- A request with the reply it got. -/
structure Exchange where
  request : Request
  reply : request.Reply

/-- The requests of a dialogue with their replies, in order. -/
def Dialogue.exchanges (host : Dialogue.Host τ) : Dialogue α → τ → List Exchange
  | .done _, _ => []
  | .ask r next, state =>
    let (reply, state) := host r state
    ⟨r, reply⟩ :: (next reply).exchanges host state

theorem Dialogue.exchanges_bind (host : Dialogue.Host τ) (d : Dialogue α) (f : α → Dialogue β)
    (state : τ) :
    (d >>= f).exchanges host state =
      d.exchanges host state ++
        (f (d.run host state).value).exchanges host (d.run host state).host := by
  induction d generalizing state with
  | done value => rfl
  | ask r next ih =>
    rw [bind_ask]
    simp only [exchanges, run, ih, List.cons_append]

theorem Dialogue.map_request_exchanges (host : Dialogue.Host τ) (d : Dialogue α) (state : τ) :
    (d.exchanges host state).map Exchange.request = (d.run host state).requests := by
  induction d generalizing state with
  | done value => rfl
  | ask r next ih => simp only [exchanges, run, List.map_cons, ih]

namespace Query

/-- The requests of a query with their replies. -/
def exchanges (query : Query α) (host : Dialogue.Host τ) (state : τ) : List Exchange :=
  (ExceptT.run query).exchanges host state

variable {host : Dialogue.Host τ} {state : τ}

theorem map_request_exchanges (query : Query α) :
    (query.exchanges host state).map Exchange.request = (query.outcome host state).requests :=
  Dialogue.map_request_exchanges host _ state

theorem exchanges_inspect (query : Inspection) :
    (Query.inspect query).exchanges host state =
      [⟨.inspect query, (host (.inspect query) state).1⟩] :=
  rfl

/-- After a query that has a value come the exchanges of the next one. -/
theorem exchanges_bind {query : Query α} {next : α → Query β} {a : α}
    (h : (query.outcome host state).value = .ok a) :
    (query >>= next : Query β).exchanges host state =
      query.exchanges host state ++
        (next a).exchanges host (query.outcome host state).host := by
  rw [outcome] at h
  rw [exchanges, ExceptT.run_bind, Dialogue.exchanges_bind, h]
  rfl

/-- After a query that fails come no further exchanges. -/
theorem exchanges_bind_error {query : Query α} {next : α → Query β} {e : TopologyError}
    (h : (query.outcome host state).value = .error e) :
    (query >>= next : Query β).exchanges host state = query.exchanges host state := by
  rw [outcome] at h
  rw [exchanges, ExceptT.run_bind, Dialogue.exchanges_bind, h]
  exact List.append_nil _

theorem exchanges_subset_of_first {query : Query α} {next : α → Query β} {a : α}
    (h : (query.outcome host state).value = .ok a) :
    query.exchanges host state ⊆ (query >>= next : Query β).exchanges host state := by
  rw [exchanges_bind h]
  exact List.subset_append_left _ _

theorem exchanges_subset_of_next {query : Query α} {next : α → Query β} {a : α}
    (h : (query.outcome host state).value = .ok a) :
    (next a).exchanges host (query.outcome host state).host ⊆
      (query >>= next : Query β).exchanges host state := by
  rw [exchanges_bind h]
  exact List.subset_append_right _ _

end Query

namespace Update

variable {host : Dialogue.Host τ} {state : τ} {start : σ}

/-- The requests of an update with their replies. -/
def exchanges (update : Update σ α) (start : σ) (host : Dialogue.Host τ) (state : τ) :
    List Exchange :=
  ((ExceptT.run update).run start).exchanges host state

theorem map_request_exchanges (update : Update σ α) :
    (update.exchanges start host state).map Exchange.request =
      (update.outcome start host state).requests :=
  Dialogue.map_request_exchanges host _ state

end Update

end BtrfsTopology
