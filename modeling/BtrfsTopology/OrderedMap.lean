/-!
# Ordered maps

A map is the list of its entries in ascending order of the keys. Inserting puts an entry in its
place and replaces the one with the same key, key included, so that of equal keys the last stays.
Two maps with the same entries are the same value.

## Main definitions

* `OrderedMap` — a map as its entries
* `OrderedMap.insert`, `OrderedMap.ofList` — building a map
* `OrderedMap.get?`, `OrderedMap.keys`, `OrderedMap.values` — reading a map
* `OrderedMap.mapValues`, `OrderedMap.adjust` — changing values in place

## Main results

* `OrderedMap.get?_insert` — inserting changes what is under the key and nothing else
* `OrderedMap.get?_mapValues` — reading a changed map
-/

namespace BtrfsTopology

/-- A map from keys to values, as its entries in ascending order of the keys. -/
structure OrderedMap (κ α : Type) where
  /-- The entries, lowest key first. -/
  entries : List (κ × α)
  deriving DecidableEq, Repr

namespace OrderedMap

variable {κ α β : Type}

/-- The map without entries. -/
def empty : OrderedMap κ α := ⟨[]⟩

instance : Inhabited (OrderedMap κ α) := ⟨empty⟩

/-- The number of entries. -/
def size (m : OrderedMap κ α) : Nat :=
  m.entries.length

/-- The keys in ascending order. -/
def keys (m : OrderedMap κ α) : List κ :=
  m.entries.map Prod.fst

/-- The values in the order of their keys. -/
def values (m : OrderedMap κ α) : List α :=
  m.entries.map Prod.snd

/-- Applies a function to every value. -/
def mapValues (f : κ → α → β) (m : OrderedMap κ α) : OrderedMap κ β :=
  ⟨m.entries.map fun (key, value) => (key, f key value)⟩

variable [DecidableEq κ]

/-- The value under a key. -/
def get? (m : OrderedMap κ α) (key : κ) : Option α :=
  (m.entries.find? fun entry => entry.1 = key).map Prod.snd

/-- Whether there is a value under a key. -/
def contains (m : OrderedMap κ α) (key : κ) : Bool :=
  (m.get? key).isSome

/-- Applies a function to the value under a key, if there is one. -/
def adjust (f : α → α) (key : κ) (m : OrderedMap κ α) : OrderedMap κ α :=
  m.mapValues fun key' value => if key' = key then f value else value

variable [LT κ] [DecidableLT κ]

/-- Puts an entry in front of the first one with a greater key, or in the place of the one with the
same key. -/
def insertEntry (key : κ) (value : α) : List (κ × α) → List (κ × α)
  | [] => [(key, value)]
  | entry :: rest =>
    if key = entry.1 then (key, value) :: rest
    else if key < entry.1 then (key, value) :: entry :: rest
    else entry :: insertEntry key value rest

/-- The map with a value under a key, in the place of any it had there. -/
def insert (m : OrderedMap κ α) (key : κ) (value : α) : OrderedMap κ α :=
  ⟨insertEntry key value m.entries⟩

/-- The map of a list of entries, of which the last with a key counts. -/
def ofList (entries : List (κ × α)) : OrderedMap κ α :=
  entries.foldl (fun m (key, value) => m.insert key value) empty

/-! ## Reading what was built -/

omit [LT κ] [DecidableLT κ] in
@[simp] theorem get?_empty (key : κ) : (empty : OrderedMap κ α).get? key = none := rfl

omit [LT κ] [DecidableLT κ] in
/-- The first entry decides for its key. -/
theorem get?_cons (entry : κ × α) (rest : List (κ × α)) (key : κ) :
    (⟨entry :: rest⟩ : OrderedMap κ α).get? key =
      if entry.1 = key then some entry.2 else (⟨rest⟩ : OrderedMap κ α).get? key := by
  by_cases h : entry.1 = key <;> simp [get?, h]

/-- Inserting changes what is under the key and nothing else. -/
theorem get?_insert (m : OrderedMap κ α) (key key' : κ) (value : α) :
    (m.insert key value).get? key' = if key = key' then some value else m.get? key' := by
  obtain ⟨entries⟩ := m
  induction entries with
  | nil => simp [insert, insertEntry, get?]
  | cons entry rest ih =>
    simp only [insert] at ih
    by_cases heq : key = entry.1
    · subst heq
      by_cases h : entry.1 = key' <;> simp [insert, insertEntry, get?_cons, h]
    · by_cases hlt : key < entry.1
      · simp [insert, insertEntry, heq, hlt, get?_cons]
      · simp only [insert, insertEntry, heq, hlt, ↓reduceIte, get?_cons, ih]
        by_cases hentry : entry.1 = key'
        · simp [hentry, show key ≠ key' from fun h => heq (h.trans hentry.symm)]
        · simp [hentry]

omit [LT κ] [DecidableLT κ] in
@[simp] theorem get?_mapValues (f : κ → α → β) (m : OrderedMap κ α) (key : κ) :
    (m.mapValues f).get? key = (m.get? key).map (f key) := by
  obtain ⟨entries⟩ := m
  induction entries with
  | nil => rfl
  | cons entry rest ih =>
    simp only [mapValues] at ih
    simp only [mapValues, List.map_cons, get?_cons, ih]
    by_cases h : entry.1 = key
    · subst h
      simp
    · simp [h]

omit [DecidableEq κ] [LT κ] [DecidableLT κ] in
@[simp] theorem mapValues_mapValues {γ : Type} (f : κ → α → β) (g : κ → β → γ)
    (m : OrderedMap κ α) :
    (m.mapValues f).mapValues g = m.mapValues fun key a => g key (f key a) := by
  simp [mapValues]

omit [DecidableEq κ] [LT κ] [DecidableLT κ] in
@[simp] theorem keys_mapValues (f : κ → α → β) (m : OrderedMap κ α) :
    (m.mapValues f).keys = m.keys := by
  simp [keys, mapValues]

end OrderedMap

end BtrfsTopology
