import BtrfsTopology.Proofs.Dialogue
import BtrfsTopology.Registry.Discovery
import Mathlib.Data.Set.Defs

/-!
# Looking at a host

A refresh and a discovery only look at the host. If the host replies to each inspection the same
whenever it is asked, they learn the same whenever they are made, though a reply may tell what to
ask next.

## Main definitions

* `Request.IsInspection` — the request only looks at the host
* `Dialogue.Host.IsSteady` — inspections are replied to alike in a set of states and do not lead out
  of it

## Main results

* `Filesystem.asks_refresh`, `Query.asks_discover` — a refresh and a discovery inspect and do
  nothing else
* `Dialogue.Host.IsSteady.run` — a dialogue that only inspects ends alike in all states
-/

namespace BtrfsTopology

/-- The request only looks at the host. -/
def Request.IsInspection (request : Request) : Prop :=
  ∃ query, request = .inspect query

/-! ## What only inspects -/

namespace Query

theorem asks_mounts : Query.mounts.Asks Request.IsInspection := by
  refine (asks_inspect ⟨_, rfl⟩).bind fun output => ?_
  split
  · exact asks_pure []
  · exact asks_ofExcept _

theorem asks_subvolumes (mount : VfsPath) :
    (Query.subvolumes mount).Asks Request.IsInspection :=
  (asks_inspect ⟨_, rfl⟩).bind fun _ => asks_ofExcept _

theorem asks_defaultSubvolume (mount : VfsPath) :
    (Query.defaultSubvolume mount).Asks Request.IsInspection :=
  (asks_inspect ⟨_, rfl⟩).bind fun _ => asks_ofExcept _

theorem asks_filesystems : Query.filesystems.Asks Request.IsInspection :=
  (asks_inspect ⟨_, rfl⟩).bind fun _ => asks_ofExcept _

end Query

namespace Filesystem

theorem asks_refreshMounts : refreshMounts.Asks Request.IsInspection :=
  (Update.asks_ofQuery Query.asks_mounts).bind fun _ => Update.asks_modify _

theorem asks_refreshSubvolumes : refreshSubvolumes.Asks Request.IsInspection := by
  refine Update.asks_get.bind fun fs => ?_
  cases fs.handle? with
  | none => exact Update.asks_pure ()
  | some mount =>
    exact (Update.asks_ofQuery (Query.asks_subvolumes mount)).bind fun _ => Update.asks_modify _

theorem asks_refreshDefault : refreshDefault.Asks Request.IsInspection := by
  refine Update.asks_get.bind fun fs => ?_
  cases fs.handle? with
  | none => exact Update.asks_pure ()
  | some mount =>
    exact (Update.asks_ofQuery (Query.asks_defaultSubvolume mount)).bind fun _ =>
      Update.asks_modify _

/-- A refresh inspects and does nothing else to the host. -/
theorem asks_refresh : refresh.Asks Request.IsInspection :=
  asks_refreshMounts.bind fun _ => asks_refreshSubvolumes.bind fun _ => asks_refreshDefault

end Filesystem

namespace Query

theorem asks_load (mountpoints : List Mountpoint) (listed : ListedFilesystem) :
    (Query.load mountpoints listed).Asks Request.IsInspection :=
  (Filesystem.asks_refreshSubvolumes.bind fun _ => Filesystem.asks_refreshDefault).final

theorem asks_loadAll (mountpoints : List Mountpoint) (listed : List ListedFilesystem)
    (loaded : FilesystemMap) :
    (Query.loadAll mountpoints listed loaded).Asks Request.IsInspection := by
  induction listed generalizing loaded with
  | nil => exact asks_pure loaded
  | cons first rest ih => exact (asks_load mountpoints first).bind fun _ => ih _

/-- A discovery inspects and does nothing else to the host. -/
theorem asks_discover : Query.discover.Asks Request.IsInspection :=
  asks_filesystems.bind fun listed => asks_mounts.bind fun mountpoints =>
    asks_loadAll mountpoints listed .empty

end Query

/-! ## Hosts that do not change -/

/-- In all states of a set the host replies to each inspection the same, and inspecting it leads to
no other state. What the host does on other requests, and in other states, is left open. -/
structure Dialogue.Host.IsSteady {τ : Type} (host : Dialogue.Host τ) (states : Set τ) : Prop where
  same_reply : ∀ query, ∀ state ∈ states, ∀ state' ∈ states,
    (host (.inspect query) state).1 = (host (.inspect query) state').1
  closed : ∀ query, ∀ state ∈ states, (host (.inspect query) state).2 ∈ states

namespace Dialogue.Host.IsSteady

variable {α σ τ : Type} {host : Dialogue.Host τ} {states : Set τ} {state state' : τ}

/-- A dialogue that only inspects ends alike in all states of a steady host and leaves it in one of
them. -/
theorem run (h : host.IsSteady states) {d : Dialogue α} (hstate : state ∈ states)
    (hstate' : state' ∈ states) (hasks : ∀ r ∈ (d.run host state).requests, r.IsInspection) :
    (d.run host state').value = (d.run host state).value ∧ (d.run host state').host ∈ states := by
  induction d generalizing state state' with
  | done value => exact ⟨rfl, hstate'⟩
  | ask r next ih =>
    obtain ⟨query, rfl⟩ : r.IsInspection := hasks r List.mem_cons_self
    -- The reply is the same, and so is what is asked next, though the two states may differ.
    have hreply := h.same_reply query state' hstate' state hstate
    simp only [Dialogue.run, hreply]
    refine ih _ (h.closed query state hstate) (h.closed query state' hstate') fun r hr => ?_
    exact hasks r (List.mem_cons_of_mem _ hr)

theorem value_query (h : host.IsSteady states) {query : Query α}
    (hquery : query.Asks Request.IsInspection) (hstate : state ∈ states)
    (hstate' : state' ∈ states) :
    (query.outcome host state').value = (query.outcome host state).value :=
  (h.run hstate hstate' (hquery τ host state)).1

theorem host_query (h : host.IsSteady states) {query : Query α}
    (hquery : query.Asks Request.IsInspection) (hstate : state ∈ states) :
    (query.outcome host state).host ∈ states :=
  (h.run hstate hstate (hquery τ host state)).2

end Dialogue.Host.IsSteady

end BtrfsTopology
