import Disclosure.Proofs.Resolved

/-!
# Disclosure.Proofs.Ungrouped — a catalogue without grouping is one required set

A request without grouping asks for its whole catalogue, and `resolveAll` selects it without going through sets.  The
same is selected for one required set whose only option names all ids in order.  The two ways differ in how the
selection is built: a copy of the map of the catalogue here, one addition after another there.

* `Catalogue.wholeSet`: the set that a missing grouping stands for.
* `Catalogue.fulfilled_wholeSet_iff`, `Catalogue.contributions_wholeSet`: when it is fulfilled, and what it contributes.
* `ungrouped_selection_exact`: both ways select the same, the whole catalogue or nothing.
-/

namespace Disclosure

namespace Catalogue

variable {c : Catalogue} {available : String → Bool} {purpose : Value}

theorem ids_ne_nil (h : c.entries ≠ []) : c.ids ≠ [] := by
  simpa [ids] using h

/-- One required set with a single option: all ids of the catalogue, in order. -/
def wholeSet (c : Catalogue) (h : c.entries ≠ []) (purpose : Value) : CredentialSet :=
  ⟨[⟨c.ids, ids_ne_nil h⟩], List.cons_ne_nil _ _, true, purpose⟩

theorem covers_wholeSet (h : c.entries ≠ []) : c.Covers [c.wholeSet h purpose] := by
  simp [Covers, wholeSet]

theorem fulfilled_wholeSet_iff (h : c.entries ≠ []) :
    (c.wholeSet h purpose).Fulfilled available ↔ ∀ id ∈ c.ids, available id = true := by
  simp [CredentialSet.Fulfilled, wholeSet]

theorem requiredFulfilled_wholeSet_iff (h : c.entries ≠ []) :
    RequiredFulfilled [c.wholeSet h purpose] available ↔ ∀ id ∈ c.ids, available id = true := by
  have hone : RequiredFulfilled [c.wholeSet h purpose] available ↔ (c.wholeSet h purpose).Fulfilled available := by
    simp [RequiredFulfilled, wholeSet]
  rw [hone, fulfilled_wholeSet_iff h]

theorem contributions_wholeSet (h : c.entries ≠ []) (ha : ∀ id ∈ c.ids, available id = true) :
    contributions [c.wholeSet h purpose] available = c.ids := by
  have hall : c.ids.all available = true := List.all_eq_true.2 ha
  simp [contributions, CredentialSet.contribution, wholeSet, hall]

end Catalogue

/-- **Without grouping the catalogue is one required set.**  The selection is the one for the set that names all ids in
order, as an ordered map; it is the whole catalogue in order when all ids are available, and empty otherwise.  An empty
catalogue, for which there is no such set, selects nothing. -/
theorem ungrouped_selection_exact (c : Catalogue) (available : String → Bool) :
    ∃ r, resolve c none available = .ok r ∧
      (∀ (h : c.entries ≠ []) (purpose : Value),
        ∃ s, resolve c (some [c.wholeSet h purpose]) available = .ok s ∧ s.selection = r.selection) ∧
      ((∀ id ∈ c.ids, available id = true) → r.selection.entries = c.entries.map (fun q => (q.id, q))) ∧
      (¬ (∀ id ∈ c.ids, available id = true) → r.selection = ∅) ∧
      (c.entries = [] → r.selection = ∅) := by
  refine ⟨resolveAll c available, rfl, ?_, ?_, resolveAll_of_missing, ?_⟩
  · intro h purpose
    refine ⟨resolveSets c available 0 ∅ [c.wholeSet h purpose],
      resolve_of_covers (Catalogue.covers_wholeSet h) available, ?_⟩
    by_cases ha : ∀ id ∈ c.ids, available id = true
    · rw [selection_of_open ((Catalogue.requiredFulfilled_wholeSet_iff h).2 ha),
        Catalogue.contributions_wholeSet h ha, resolveAll_of_available ha]
    · rw [selection_of_refused (fun hf => ha ((Catalogue.requiredFulfilled_wholeSet_iff h).1 hf)),
        resolveAll_of_missing ha]
  · intro ha
    rw [resolveAll_of_available ha, ← Catalogue.toMap_eq_addAll, Catalogue.entries_toMap]
  · intro hnil
    have hids : c.ids = [] := by rw [Catalogue.ids, hnil, List.map_nil]
    have ha : ∀ id ∈ c.ids, available id = true := by simp [hids]
    rw [resolveAll_of_available ha, hids]
    rfl

/-- Three queries are all selected, in order, or none of them when one is missing. -/
theorem ungrouped_selection_three :
    ∃ (h : threeQueries.entries ≠ []) (r s : Resolution),
      resolve threeQueries none (fun id => id != "d") = .ok r ∧
      resolve threeQueries (some [threeQueries.wholeSet h .null]) (fun id => id != "d") = .ok s ∧
      s.selection = r.selection ∧ s.selection.keys = ["a", "b", "c"] ∧
      ∃ t, resolve threeQueries none (fun id => id != "b") = .ok t ∧ t.selection = ∅ := by
  have h : threeQueries.entries ≠ [] := List.cons_ne_nil _ _
  obtain ⟨r, hr, hset, hall, -⟩ := ungrouped_selection_exact threeQueries (fun id => id != "d")
  obtain ⟨t, ht, -, -, hnone, -⟩ := ungrouped_selection_exact threeQueries (fun id => id != "b")
  obtain ⟨s, hs, heq⟩ := hset h .null
  refine ⟨h, r, s, hr, hs, heq, ?_, t, ht, hnone (by decide)⟩
  rw [heq, OrderedMap.keys, hall (by decide)]
  decide

end Disclosure
