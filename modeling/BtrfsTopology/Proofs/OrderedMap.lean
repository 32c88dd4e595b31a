import BtrfsTopology.OrderedMap
import Mathlib.Order.Defs.Unbundled

/-!
# The entries of ordered maps

A map that was built by inserting has its entries in strictly ascending order of the keys. So there
is one entry for each key, and looking a key up is asking which entry has it.

## Main definitions

* `OrderedMap.IsAscending` — the keys ascend strictly

## Main results

* `OrderedMap.IsAscending.insert` — inserting keeps the order
* `OrderedMap.mem_entries_insert` — inserting adds one entry at most
* `OrderedMap.IsAscending.get?_eq_some_iff` — looking up finds the entry with the key
-/

namespace BtrfsTopology.OrderedMap

variable {κ α β : Type}

/-- The keys of the map ascend strictly. -/
def IsAscending [LT κ] (m : OrderedMap κ α) : Prop :=
  m.keys.Pairwise (· < ·)

theorem mem_values_iff {m : OrderedMap κ α} {value : α} :
    value ∈ m.values ↔ ∃ key, (key, value) ∈ m.entries := by
  simp [values]

theorem mem_keys_of_mem_entries {m : OrderedMap κ α} {entry : κ × α} (h : entry ∈ m.entries) :
    entry.1 ∈ m.keys :=
  List.mem_map_of_mem h

theorem isAscending_empty [LT κ] : (empty : OrderedMap κ α).IsAscending :=
  List.Pairwise.nil

theorem IsAscending.mapValues [LT κ] {m : OrderedMap κ α} (h : m.IsAscending) (f : κ → α → β) :
    (m.mapValues f).IsAscending := by
  rw [IsAscending, keys_mapValues]
  exact h

theorem mem_entries_mapValues {m : OrderedMap κ α} {f : κ → α → β} {entry : κ × β} :
    entry ∈ (m.mapValues f).entries ↔
      ∃ value, (entry.1, value) ∈ m.entries ∧ f entry.1 value = entry.2 := by
  obtain ⟨key, value⟩ := entry
  constructor
  · intro h
    obtain ⟨⟨key', value'⟩, hmem, heq⟩ := List.mem_map.1 h
    obtain ⟨rfl, rfl⟩ := Prod.mk.inj heq
    exact ⟨value', hmem, rfl⟩
  · rintro ⟨value', hmem, heq⟩
    exact List.mem_map.2 ⟨(key, value'), hmem, congrArg (Prod.mk key) heq⟩

section Lookup

variable [DecidableEq κ]

/-- What is found under a key is the value of an entry with that key. -/
theorem mem_entries_of_get? {m : OrderedMap κ α} {key : κ} {value : α}
    (h : m.get? key = some value) : (key, value) ∈ m.entries := by
  obtain ⟨entry, hfind, rfl⟩ := Option.map_eq_some_iff.1 h
  have hkey : entry.1 = key := by simpa using List.find?_some hfind
  subst hkey
  exact List.mem_of_find?_eq_some hfind

theorem contains_iff {m : OrderedMap κ α} {key : κ} :
    m.contains key ↔ ∃ value, (key, value) ∈ m.entries := by
  rw [contains, get?, Option.isSome_map, List.find?_isSome]
  constructor
  · rintro ⟨⟨key', value⟩, hmem, hkey⟩
    obtain rfl : key' = key := by simpa using hkey
    exact ⟨value, hmem⟩
  · rintro ⟨value, hmem⟩
    exact ⟨(key, value), hmem, by simp⟩

/-- In an ascending map every entry is found under its key. -/
theorem IsAscending.get?_eq_some_iff [LT κ] [Std.Irrefl (α := κ) (· < ·)] {m : OrderedMap κ α}
    (h : m.IsAscending) {key : κ} {value : α} :
    m.get? key = some value ↔ (key, value) ∈ m.entries := by
  refine ⟨mem_entries_of_get?, ?_⟩
  obtain ⟨entries⟩ := m
  induction entries with
  | nil => simp
  | cons entry rest ih =>
    obtain ⟨hfirst, hrest⟩ := List.pairwise_cons.1 h
    intro hmem
    rw [get?_cons]
    rcases List.mem_cons.1 hmem with rfl | hmem
    · simp
    · -- The key of a later entry is greater than that of the first, hence another one.
      have hlt : entry.1 < key := hfirst key (mem_keys_of_mem_entries hmem)
      have hne : entry.1 ≠ key := by
        rintro rfl
        exact Std.Irrefl.irrefl entry.1 hlt
      rw [if_neg hne]
      exact ih hrest hmem

end Lookup

section Insert

variable [DecidableEq κ] [LT κ] [DecidableLT κ]

/-- Inserting adds no entry but its own. -/
theorem mem_entries_insert {m : OrderedMap κ α} {key : κ} {value : α} {entry : κ × α}
    (h : entry ∈ (m.insert key value).entries) : entry = (key, value) ∨ entry ∈ m.entries := by
  obtain ⟨entries⟩ := m
  induction entries with
  | nil => exact .inl (List.mem_singleton.1 h)
  | cons first rest ih =>
    simp only [insert, insertEntry] at h ih
    split at h
    · rcases List.mem_cons.1 h with rfl | hmem
      · exact .inl rfl
      · exact .inr (List.mem_cons_of_mem first hmem)
    · split at h
      · rcases List.mem_cons.1 h with rfl | hmem
        · exact .inl rfl
        · exact .inr hmem
      · rcases List.mem_cons.1 h with rfl | hmem
        · exact .inr List.mem_cons_self
        · rcases ih hmem with heq | hrest
          · exact .inl heq
          · exact .inr (List.mem_cons_of_mem first hrest)

/-- What holds of every entry holds after one that satisfies it was inserted. -/
theorem forall_mem_entries_insert {p : κ × α → Prop} {m : OrderedMap κ α} {key : κ} {value : α}
    (hnew : p (key, value)) (hold : ∀ entry ∈ m.entries, p entry) :
    ∀ entry ∈ (m.insert key value).entries, p entry := by
  intro entry hentry
  rcases mem_entries_insert hentry with rfl | hmem
  · exact hnew
  · exact hold entry hmem

/-- What holds of all that is listed holds of every entry of its map. -/
theorem forall_mem_entries_ofList {p : κ × α → Prop} {entries : List (κ × α)}
    (h : ∀ entry ∈ entries, p entry) : ∀ entry ∈ (ofList entries).entries, p entry := by
  suffices ∀ m : OrderedMap κ α, (∀ entry ∈ m.entries, p entry) →
      ∀ entry ∈ (entries.foldl (fun m entry => m.insert entry.1 entry.2) m).entries, p entry from
    this empty fun _ hentry => absurd hentry List.not_mem_nil
  induction entries with
  | nil => exact fun _ hm => hm
  | cons entry rest ih =>
    intro m hm
    exact ih (fun other hother => h other (List.mem_cons_of_mem entry hother)) _
      (forall_mem_entries_insert (h entry List.mem_cons_self) hm)

/-- Inserting keeps the order. -/
theorem IsAscending.insert [IsTrans κ (· < ·)] [Std.Trichotomous (α := κ) (· < ·)]
    {m : OrderedMap κ α} (h : m.IsAscending) (key : κ) (value : α) :
    (m.insert key value).IsAscending := by
  obtain ⟨entries⟩ := m
  induction entries with
  | nil => exact List.pairwise_singleton _ key
  | cons first rest ih =>
    obtain ⟨hfirst, hrest⟩ := List.pairwise_cons.1 h
    simp only [OrderedMap.insert, insertEntry] at ih ⊢
    by_cases heq : key = first.1
    · rw [if_pos heq]
      subst heq
      exact h
    by_cases hlt : key < first.1
    · rw [if_neg heq, if_pos hlt]
      refine List.pairwise_cons.2 ⟨fun other hother => ?_, h⟩
      rcases List.mem_cons.1 hother with rfl | hother
      · exact hlt
      · exact IsTrans.trans _ _ _ hlt (hfirst other hother)
    · have hgt : first.1 < key :=
        Decidable.byContradiction fun hngt =>
          heq (Std.Trichotomous.trichotomous key first.1 hlt hngt)
      rw [if_neg heq, if_neg hlt]
      refine List.pairwise_cons.2 ⟨fun other hother => ?_, ih hrest⟩
      obtain ⟨entry, hentry, rfl⟩ := List.mem_map.1 hother
      rcases mem_entries_insert (m := ⟨rest⟩) hentry with rfl | hentry
      · exact hgt
      · exact hfirst entry.1 (mem_keys_of_mem_entries hentry)

end Insert

end BtrfsTopology.OrderedMap
