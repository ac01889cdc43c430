import Disclosure.Proofs.Grouped

/-!
# Disclosure.Proofs.Resolved — what the resolution of a request selects

Without grouping a catalogue is resolved as a whole, and the map of its queries is what adding its ids gives.  Together
with the sets of `Grouped` this says of every request when something is selected, and what.

* `Catalogue.toMap_eq_addAll`, `Catalogue.entries_toMap`: the map of a catalogue.
* `resolveAll_eq_toMap`, `resolveAll_eq_refusal`: all queries or none.
* `Request.selection_ne_empty_iff`: when something is selected.
* `Request.exists_get?_of_mem_selection`: what is selected is available and stands under its own id.
-/

namespace Disclosure

/-! ### Without grouping -/

namespace Catalogue

variable {c : Catalogue}

theorem foldl_put_eq_addAll {entries : List CredentialQuery} (h : ∀ q ∈ entries, q ∈ c.entries) (m : Selection) :
    entries.foldl (fun m q => m.put q.id q) m = Selection.addAll c m (entries.map CredentialQuery.id) := by
  induction entries generalizing m with
  | nil => rfl
  | cons q rest ih =>
    have hq : c.get? q.id = some q := get?_eq_some_iff.2 ⟨h q (by simp), rfl⟩
    have hrest : ∀ p ∈ rest, p ∈ c.entries := fun p hp => h p (by simp [hp])
    rw [List.foldl_cons, ih hrest, List.map_cons, Selection.addAll_cons hq]

/-- The queries by id are what adding all ids gives. -/
theorem toMap_eq_addAll (c : Catalogue) : c.toMap = Selection.addAll c ∅ c.ids :=
  foldl_put_eq_addAll (fun _ h => h) ∅

/-- Queries with new and distinct ids are put behind what is there, each under its own id. -/
theorem entries_foldl_put {queries : List CredentialQuery} {m : Selection}
    (h : (m.keys ++ queries.map CredentialQuery.id).Nodup) :
    (queries.foldl (fun m q => m.put q.id q) m).entries = m.entries ++ queries.map (fun q => (q.id, q)) := by
  induction queries generalizing m with
  | nil => simp
  | cons q rest ih =>
    have hnew : q.id ∉ m.keys := fun hmem => (List.nodup_append.1 h).2.2 q.id hmem q.id (by simp) rfl
    rw [List.map_cons, List.append_cons] at h
    rw [List.foldl_cons, ih, OrderedMap.entries_put_of_new hnew, List.map_cons, ← List.append_cons]
    rw [OrderedMap.keys_put, if_neg hnew]
    exact h

/-- The map of a catalogue lists the queries in order. -/
theorem entries_toMap (c : Catalogue) : c.toMap.entries = c.entries.map (fun q => (q.id, q)) := by
  rw [toMap, entries_foldl_put]
  · rfl
  · exact c.nodup_ids

end Catalogue

variable {c : Catalogue} {available : String → Bool}

theorem resolveAll_eq_toMap (h : ∀ id ∈ c.ids, available id = true) : resolveAll c available = ⟨c.toMap, []⟩ := by
  have hnone : c.ids.filter (fun id => !available id) = [] := by
    rw [List.filter_eq_nil_iff]
    intro id hid
    simp [h id hid]
  rw [resolveAll, hnone]

/-- When ids are not available, one event lists them, and nothing is selected. -/
theorem resolveAll_eq_refusal (h : ¬ ∀ id ∈ c.ids, available id = true) :
    resolveAll c available = .refusal (.missing (c.ids.filter (fun id => !available id))) := by
  unfold resolveAll
  split
  · rename_i hnone
    refine absurd (fun id hid => ?_) h
    simpa using List.filter_eq_nil_iff.1 hnone id hid
  · rfl

theorem resolveAll_of_available (h : ∀ id ∈ c.ids, available id = true) :
    (resolveAll c available).selection = Selection.addAll c ∅ c.ids := by
  rw [resolveAll_eq_toMap h, ← Catalogue.toMap_eq_addAll]

theorem resolveAll_of_missing (h : ¬ ∀ id ∈ c.ids, available id = true) : (resolveAll c available).selection = ∅ := by
  rw [resolveAll_eq_refusal h]
  rfl

/-! ### Requests -/

namespace Request

variable {r : Request}

theorem covers_of_grouping {sets : List CredentialSet} (h : r.grouping = some sets) : r.catalogue.Covers sets :=
  firstUnknown?_eq_none_iff_forall.1 r.references_known sets h

/-- What is selected comes from adding ids of the catalogue that are available. -/
theorem exists_selection_eq_addAll (r : Request) (available : String → Bool) :
    ∃ ids, (∀ id ∈ ids, id ∈ r.catalogue.ids) ∧ (∀ id ∈ ids, available id = true) ∧
      (r.resolve available).selection = Selection.addAll r.catalogue ∅ ids := by
  have hnothing : ∃ ids, (∀ id ∈ ids, id ∈ r.catalogue.ids) ∧ (∀ id ∈ ids, available id = true) ∧
      (∅ : Selection) = Selection.addAll r.catalogue ∅ ids := ⟨[], by simp, by simp, rfl⟩
  unfold resolve
  cases hg : r.grouping with
  | none =>
    by_cases h : ∀ id ∈ r.catalogue.ids, available id = true
    · exact ⟨r.catalogue.ids, fun _ hid => hid, h, resolveAll_of_available h⟩
    · rw [resolveKnown, resolveAll_of_missing h]
      exact hnothing
  | some sets =>
    by_cases h : RequiredFulfilled sets available
    · exact ⟨contributions sets available, mem_ids_of_mem_contributions (covers_of_grouping hg),
        available_of_mem_contributions, selection_of_open h⟩
    · rw [resolveKnown, selection_of_refused h]
      exact hnothing

/-- Something is selected exactly when the whole catalogue is available, or the required sets and some set are. -/
theorem selection_ne_empty_iff (hne : r.catalogue.entries ≠ []) :
    (r.resolve available).selection ≠ ∅ ↔
      (r.grouping = none ∧ ∀ id ∈ r.catalogue.ids, available id = true) ∨
      ∃ sets, r.grouping = some sets ∧ RequiredFulfilled sets available ∧ ∃ s ∈ sets, s.Fulfilled available := by
  unfold resolve
  cases hg : r.grouping with
  | none =>
    have hids : r.catalogue.ids ≠ [] := by simpa [Catalogue.ids] using hne
    simp only [resolveKnown, true_and, reduceCtorEq, false_and, exists_false, or_false]
    by_cases h : ∀ id ∈ r.catalogue.ids, available id = true
    · rw [resolveAll_of_available h, Selection.addAll_ne_empty_iff (fun _ hid => hid)]
      exact ⟨fun _ => h, fun _ => hids⟩
    · rw [resolveAll_of_missing h]
      exact ⟨fun hn => absurd rfl hn, fun ha => absurd ha h⟩
  | some sets =>
    simp only [resolveKnown, reduceCtorEq, false_and, false_or, Option.some.injEq, exists_eq_left']
    exact resolveSets_ne_empty_iff (covers_of_grouping hg)

/-- What is selected is available, and stands under its own id as in the catalogue. -/
theorem exists_get?_of_mem_selection {key : String} (hkey : key ∈ (r.resolve available).selection.keys) :
    available key = true ∧ ∃ q, (r.resolve available).selection.get? key = some q ∧
      q ∈ r.catalogue.entries ∧ q.id = key := by
  obtain ⟨ids, hknown, havailable, heq⟩ := exists_selection_eq_addAll r available
  rw [heq] at hkey ⊢
  obtain ⟨hmem, hq⟩ := Selection.exists_get?_of_mem_keys hknown hkey
  exact ⟨havailable key hmem, hq⟩

end Request

end Disclosure
