import Disclosure.Resolution
import Mathlib.Data.List.Nodup

/-!
# Disclosure.Proofs.Selection — what a selection holds after ids are added to it

A selection is seen through its keys, in order, and through what is found under them.  Adding ids of the catalogue
notes the ids as keys and puts the queries of the catalogue under them.

* `firstSeen_eq_eraseDups`: noting one text after another keeps the first occurrence of each.
* `OrderedMap.mem_entries_iff`, `OrderedMap.entries_put_of_new`: entries, and the keys that they stand under.
* `OrderedMap.entries_perm_of_get?_eq`: maps in which the same is found.
* `Catalogue.get?_eq_some_iff`: the catalogue finds exactly the query that carries the id.
* `Selection.keys_addAll`, `Selection.get?_addAll`: keys and look-ups after a run of additions.
-/

namespace Disclosure

/-! ### First occurrences -/

/-- Noting texts appends those that are new, each at its first occurrence. -/
theorem noteAll_eq_append (seen texts : List String) :
    noteAll seen texts = seen ++ (texts.filter (fun t => !seen.contains t)).eraseDups := by
  induction texts generalizing seen with
  | nil => simp
  | cons s rest ih =>
    rw [noteAll_cons, ih]
    by_cases hs : s ∈ seen
    · have hnote : note seen s = seen := by simp [note, hs]
      rw [hnote, List.filter_cons_of_neg (by simp [hs])]
    · have hnote : note seen s = seen ++ [s] := by simp [note, hs]
      rw [hnote, List.filter_cons_of_pos (by simp [hs]), List.eraseDups_cons, List.filter_filter,
        List.append_assoc, List.singleton_append]
      -- what is new after `s` is new before it and differs from `s`
      have hnew : (fun t => !(seen ++ [s]).contains t) = (fun t => (!t == s) && !seen.contains t) := by
        funext t
        by_cases ht : t = s <;> simp [ht]
      rw [hnew]

theorem firstSeen_eq_eraseDups (texts : List String) : firstSeen texts = texts.eraseDups := by
  have h := noteAll_eq_append [] texts
  rw [List.filter_eq_self.2 (by simp), List.nil_append] at h
  exact h

/-! ### Entries of an ordered map -/

namespace OrderedMap

variable {α : Type} {m m' : OrderedMap α} {key : String} {value : α}

theorem eq_empty_iff : m = ∅ ↔ m.keys = [] := by
  constructor
  · rintro rfl
    rfl
  · intro h
    have hm : m.entries = [] := by simpa [keys] using h
    exact OrderedMap.ext hm

/-- Keys are distinct, so an entry is found under its key. -/
theorem get?_of_mem_entries {e : String × α} (h : e ∈ m.entries) : m.get? e.1 = some e.2 := by
  obtain ⟨entries, hnodup⟩ := m
  unfold get?
  dsimp only at h ⊢
  induction entries with
  | nil => simp at h
  | cons f rest ih =>
    obtain ⟨k, v⟩ := f
    rw [List.map_cons, List.nodup_cons] at hnodup
    rw [lookup_cons_eq_ite]
    rcases List.mem_cons.1 h with rfl | hrest
    · simp
    · have hkey : e.1 ∈ rest.map Prod.fst := List.mem_map_of_mem hrest
      have hne : e.1 ≠ k := by
        rintro rfl
        exact hnodup.1 hkey
      rw [if_neg hne]
      exact ih hnodup.2 hrest

theorem isSome_get?_iff : (m.get? key).isSome = true ↔ key ∈ m.keys := by
  rw [Option.isSome_iff_exists, get?, keys]
  induction m.entries with
  | nil => simp
  | cons e rest ih =>
    obtain ⟨k, v⟩ := e
    rw [lookup_cons_eq_ite]
    by_cases h : key = k
    · simp [h]
    · simp [h, ih]

theorem mem_entries_iff : (key, value) ∈ m.entries ↔ m.get? key = some value := by
  constructor
  · exact get?_of_mem_entries
  · intro h
    have hkey : key ∈ m.keys := isSome_get?_iff.1 (by rw [h, Option.isSome_some])
    obtain ⟨⟨k, v⟩, he, rfl⟩ := List.mem_map.1 hkey
    obtain rfl : v = value := Option.some.inj ((get?_of_mem_entries he).symm.trans h)
    exact he

/-- Maps in which the same is found have the same entries, in some order. -/
theorem entries_perm_of_get?_eq (h : ∀ key, m.get? key = m'.get? key) : m.entries.Perm m'.entries := by
  rw [List.perm_ext_iff_of_nodup (List.Nodup.of_map _ m.nodup_keys) (List.Nodup.of_map _ m'.nodup_keys)]
  rintro ⟨key, value⟩
  rw [mem_entries_iff, mem_entries_iff, h]

theorem putEntry_of_new {entries : List (String × α)} (h : key ∉ entries.map Prod.fst) :
    putEntry key value entries = entries ++ [(key, value)] := by
  induction entries with
  | nil => rfl
  | cons e rest ih =>
    obtain ⟨k, v⟩ := e
    rw [List.map_cons, List.mem_cons, not_or] at h
    have hk : k ≠ key := fun heq => h.1 heq.symm
    rw [putEntry, if_neg hk, ih h.2, List.cons_append]

/-- A new key goes to the end. -/
theorem entries_put_of_new (h : key ∉ m.keys) : (m.put key value).entries = m.entries ++ [(key, value)] :=
  putEntry_of_new h

end OrderedMap

/-! ### Look-ups in a catalogue -/

namespace Catalogue

variable {c : Catalogue} {id : String} {q : CredentialQuery}

/-- Two queries of a catalogue with one id are one query. -/
theorem eq_of_id_eq {p : CredentialQuery} (hp : p ∈ c.entries) (hq : q ∈ c.entries) (h : p.id = q.id) : p = q :=
  List.inj_on_of_nodup_map c.nodup_ids hp hq h

theorem get?_eq_some_iff : c.get? id = some q ↔ q ∈ c.entries ∧ q.id = id := by
  unfold get?
  constructor
  · intro h
    exact ⟨List.mem_of_find?_eq_some h, by simpa using List.find?_some h⟩
  · rintro ⟨hq, hid⟩
    cases hf : c.entries.find? (fun q => q.id == id) with
    | none =>
      have hno := List.find?_eq_none.1 hf q hq
      simp [hid] at hno
    | some p =>
      have hp : p.id = id := by simpa using List.find?_some hf
      rw [eq_of_id_eq (List.mem_of_find?_eq_some hf) hq (hp.trans hid.symm)]

theorem exists_get?_of_mem_ids (h : id ∈ c.ids) : ∃ q, c.get? id = some q := by
  obtain ⟨q, hq, hid⟩ := List.mem_map.1 h
  exact ⟨q, get?_eq_some_iff.2 ⟨hq, hid⟩⟩

/-- The order of a catalogue does not matter to what is found in it. -/
theorem get?_eq_of_perm {c' : Catalogue} (h : c'.entries.Perm c.entries) (id : String) : c'.get? id = c.get? id := by
  ext q
  rw [get?_eq_some_iff, get?_eq_some_iff, h.mem_iff]

end Catalogue

/-! ### Additions to a selection -/

namespace Selection

variable {c : Catalogue} {m : Selection} {ids : List String}

@[simp]
theorem addAll_nil : addAll c m [] = m := rfl

theorem addAll_append (ids later : List String) :
    addAll c m (ids ++ later) = addAll c (addAll c m ids) later := by
  simp [addAll, List.foldl_append]

theorem addAll_cons {id : String} {q : CredentialQuery} (h : c.get? id = some q) (rest : List String) :
    addAll c m (id :: rest) = addAll c (m.put id q) rest := by
  simp [addAll, h]

/-- Additions note the ids after the keys that are there. -/
theorem keys_addAll (h : ∀ id ∈ ids, id ∈ c.ids) : (addAll c m ids).keys = noteAll m.keys ids := by
  induction ids generalizing m with
  | nil => rfl
  | cons id rest ih =>
    obtain ⟨q, hq⟩ := Catalogue.exists_get?_of_mem_ids (h id (by simp))
    have hrest : ∀ i ∈ rest, i ∈ c.ids := fun i hi => h i (by simp [hi])
    rw [addAll_cons hq, ih hrest, OrderedMap.keys_put, noteAll_cons]
    rfl

/-- Under an added id stands the query of the catalogue; nothing else changes. -/
theorem get?_addAll (h : ∀ id ∈ ids, id ∈ c.ids) (key : String) :
    (addAll c m ids).get? key = if key ∈ ids then c.get? key else m.get? key := by
  induction ids generalizing m with
  | nil => simp
  | cons id rest ih =>
    obtain ⟨q, hq⟩ := Catalogue.exists_get?_of_mem_ids (h id (by simp))
    have hrest : ∀ i ∈ rest, i ∈ c.ids := fun i hi => h i (by simp [hi])
    rw [addAll_cons hq, ih hrest, OrderedMap.get?_put]
    by_cases hk : key = id
    · subst hk
      simp [hq]
    · simp [hk]

theorem addAll_ne_empty_iff (h : ∀ id ∈ ids, id ∈ c.ids) : addAll c ∅ ids ≠ ∅ ↔ ids ≠ [] := by
  have hnil : noteAll [] ids = [] ↔ ids = [] := by
    simp only [List.eq_nil_iff_forall_not_mem, mem_noteAll, List.not_mem_nil, false_or]
  rw [ne_eq, OrderedMap.eq_empty_iff, keys_addAll h, OrderedMap.keys_empty, hnil]

/-- Under a key stands the query of the catalogue with that id. -/
theorem exists_get?_of_mem_keys (h : ∀ id ∈ ids, id ∈ c.ids) {key : String} (hkey : key ∈ (addAll c ∅ ids).keys) :
    key ∈ ids ∧ ∃ q, (addAll c ∅ ids).get? key = some q ∧ q ∈ c.entries ∧ q.id = key := by
  have hmem : key ∈ ids := by simpa [keys_addAll h, mem_noteAll] using hkey
  obtain ⟨q, hq⟩ := Catalogue.exists_get?_of_mem_ids (h key hmem)
  refine ⟨hmem, q, ?_, Catalogue.get?_eq_some_iff.1 hq⟩
  rw [get?_addAll h, if_pos hmem, hq]

end Selection

end Disclosure
