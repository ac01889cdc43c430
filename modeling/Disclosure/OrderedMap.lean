/-!
# Disclosure.OrderedMap — entries in the order in which their keys were first put in

An `OrderedMap α` holds each key once.  `put` gives a key a new value: a key that is already there keeps its place,
a new key goes to the end.

* `keys_put`: the keys after `put`.
* `get?_put`: what is found after `put`.
-/

namespace Disclosure

/-- Values by key; the keys are pairwise distinct and stand in the order of their first insertion. -/
structure OrderedMap (α : Type) where
  entries : List (String × α)
  nodup_keys : (entries.map Prod.fst).Nodup

namespace OrderedMap

variable {α : Type}

/-- Gives `key` the value `value`, in its place or at the end. -/
def putEntry (key : String) (value : α) : List (String × α) → List (String × α)
  | [] => [(key, value)]
  | (k, v) :: rest => if k = key then (k, value) :: rest else (k, v) :: putEntry key value rest

theorem keys_putEntry (key : String) (value : α) (entries : List (String × α)) :
    (putEntry key value entries).map Prod.fst =
      if key ∈ entries.map Prod.fst then entries.map Prod.fst else entries.map Prod.fst ++ [key] := by
  induction entries with
  | nil => rfl
  | cons e rest ih =>
    obtain ⟨k, v⟩ := e
    by_cases h : k = key
    · simp [putEntry, h]
    · have h' : key ≠ k := fun e => h e.symm
      simp only [putEntry, h, if_false, List.map_cons, ih, List.mem_cons, h', false_or]
      split <;> rfl

theorem nodup_putEntry {key : String} {value : α} {entries : List (String × α)}
    (h : (entries.map Prod.fst).Nodup) : ((putEntry key value entries).map Prod.fst).Nodup := by
  rw [keys_putEntry]
  split
  · exact h
  · rename_i hk
    exact List.nodup_append.2 ⟨h, by simp, by
      intro a ha b hb hab
      rw [List.mem_singleton] at hb
      exact hk (hb ▸ hab ▸ ha)⟩

theorem lookup_cons_eq_ite (key k : String) (v : α) (rest : List (String × α)) :
    ((k, v) :: rest).lookup key = if key = k then some v else rest.lookup key := by
  by_cases h : key = k
  · simp [h]
  · simp [List.lookup_cons, beq_eq_false_iff_ne.2 h, h]

theorem lookup_putEntry (key other : String) (value : α) (entries : List (String × α)) :
    (putEntry key value entries).lookup other =
      if other = key then some value else entries.lookup other := by
  induction entries with
  | nil => exact lookup_cons_eq_ite other key value []
  | cons e rest ih =>
    obtain ⟨k, v⟩ := e
    by_cases hk : k = key
    · subst hk
      simp only [putEntry, if_true, lookup_cons_eq_ite]
      split <;> rfl
    · simp only [putEntry, hk, if_false, lookup_cons_eq_ite, ih]
      by_cases h : other = k
      · subst h
        simp [hk]
      · simp [h]

/-- The map without entries. -/
def empty : OrderedMap α := ⟨[], List.nodup_nil⟩

instance : EmptyCollection (OrderedMap α) := ⟨empty⟩

instance : Inhabited (OrderedMap α) := ⟨empty⟩

/-- The keys, in order. -/
def keys (m : OrderedMap α) : List String := m.entries.map Prod.fst

/-- The values, in the order of their keys. -/
def values (m : OrderedMap α) : List α := m.entries.map Prod.snd

/-- The number of entries. -/
def size (m : OrderedMap α) : Nat := m.entries.length

/-- Whether there is no entry. -/
def isEmpty (m : OrderedMap α) : Bool := m.entries.isEmpty

/-- The value of a key. -/
def get? (m : OrderedMap α) (key : String) : Option α := m.entries.lookup key

/-- Gives `key` the value `value`: a known key keeps its place, a new one goes to the end. -/
def put (m : OrderedMap α) (key : String) (value : α) : OrderedMap α :=
  ⟨putEntry key value m.entries, nodup_putEntry m.nodup_keys⟩

/-- Puts the entries in, one after another: of two entries with one key the place of the first counts, and the
value of the last. -/
def ofList (entries : List (String × α)) : OrderedMap α :=
  entries.foldl (fun m e => m.put e.1 e.2) ∅

/-! ### What the operations do to keys and look-ups -/

@[ext]
theorem ext {a b : OrderedMap α} (h : a.entries = b.entries) : a = b := by
  cases a; cases b; cases h; rfl

@[simp]
theorem keys_empty : (∅ : OrderedMap α).keys = [] := rfl

@[simp]
theorem get?_empty (key : String) : (∅ : OrderedMap α).get? key = none := rfl

theorem keys_nodup (m : OrderedMap α) : m.keys.Nodup := m.nodup_keys

theorem keys_put (m : OrderedMap α) (key : String) (value : α) :
    (m.put key value).keys = if key ∈ m.keys then m.keys else m.keys ++ [key] :=
  keys_putEntry key value m.entries

theorem get?_put (m : OrderedMap α) (key other : String) (value : α) :
    (m.put key value).get? other = if other = key then some value else m.get? other :=
  lookup_putEntry key other value m.entries

@[simp]
theorem size_eq_length_keys (m : OrderedMap α) : m.size = m.keys.length := by
  simp [size, keys]

end OrderedMap

end Disclosure
