import Disclosure.Proofs.Grouped

/-!
# Disclosure.Proofs.OptionalSets — what optional sets and required flags decide

A required flag decides whether a resolution selects anything at all, and nothing else: what a set contributes depends on
its options only.  So one more optional set, wherever it stands, takes nothing away and adds at most one of its options,
and a resolution that selects something selects the same when required sets are made optional.

* `requiredFulfilled_insert_iff`, `mem_contributions_insert_iff`: one more optional set.
* `CredentialSet.Relaxed`: the same options, not required unless they were.
* `contributions_of_relaxed`, `RequiredFulfilled.of_relaxed`: a list of sets some of which are made optional.
* `optional_sets_harmless`: what both mean for the selection.
-/

namespace Disclosure

section

variable {c : Catalogue} {available : String → Bool} {s t : CredentialSet} {sets relaxed before later : List CredentialSet}

/-! ### One more optional set -/

theorem Catalogue.covers_insert_iff : c.Covers (before ++ s :: later) ↔ c.Covers (before ++ later) ∧ c.Covers [s] := by
  simp only [Covers, List.mem_append, List.mem_cons, List.not_mem_nil, or_false, forall_eq]
  constructor
  · intro h
    exact ⟨fun t ht => h t (ht.imp_right Or.inr), h s (Or.inr (Or.inl rfl))⟩
  · rintro ⟨hothers, hs⟩ t (ht | rfl | ht)
    · exact hothers t (Or.inl ht)
    · exact hs
    · exact hothers t (Or.inr ht)

theorem requiredFulfilled_insert_iff (h : s.required = false) :
    RequiredFulfilled (before ++ s :: later) available ↔ RequiredFulfilled (before ++ later) available := by
  simp [RequiredFulfilled, or_imp, forall_and, h]

theorem mem_contributions_insert_iff {id : String} :
    id ∈ contributions (before ++ s :: later) available ↔
      id ∈ contributions (before ++ later) available ∨ id ∈ s.contribution available := by
  simp only [contributions, List.flatMap_append, List.flatMap_cons, List.mem_append]
  tauto

/-- A set without an option that is available in full contributes nothing, wherever it stands. -/
theorem contributions_insert_of_not_fulfilled (h : ¬ s.Fulfilled available) :
    contributions (before ++ s :: later) available = contributions (before ++ later) available := by
  simp [contributions, CredentialSet.contribution_eq_nil_iff.2 h]

/-! ### Sets made optional -/

/-- The second set offers the options of the first, and is required only if the first is. -/
structure CredentialSet.Relaxed (s t : CredentialSet) : Prop where
  options_eq : t.options = s.options
  required_of_required : t.required = true → s.required = true

theorem CredentialSet.Relaxed.fulfilled_iff (h : s.Relaxed t) : t.Fulfilled available ↔ s.Fulfilled available := by
  rw [Fulfilled, Fulfilled, h.options_eq]

theorem CredentialSet.Relaxed.contribution_eq (h : s.Relaxed t) : t.contribution available = s.contribution available := by
  rw [contribution, contribution, h.options_eq]

theorem contributions_of_relaxed (h : List.Forall₂ CredentialSet.Relaxed sets relaxed) :
    contributions relaxed available = contributions sets available := by
  induction h with
  | nil => rfl
  | cons hs _ ih =>
    rw [contributions, contributions, List.flatMap_cons, List.flatMap_cons, hs.contribution_eq]
    exact congrArg _ ih

theorem RequiredFulfilled.of_relaxed (h : List.Forall₂ CredentialSet.Relaxed sets relaxed)
    (hopen : RequiredFulfilled sets available) : RequiredFulfilled relaxed available := by
  induction h with
  | nil => exact hopen
  | cons hs _ ih =>
    obtain ⟨hfirst, hrest⟩ := List.forall_mem_cons.1 hopen
    exact List.forall_mem_cons.2 ⟨fun hr => hs.fulfilled_iff.2 (hfirst (hs.required_of_required hr)), ih hrest⟩

theorem Catalogue.Covers.of_relaxed (h : List.Forall₂ CredentialSet.Relaxed sets relaxed) (hc : c.Covers sets) :
    c.Covers relaxed := by
  induction h with
  | nil => exact hc
  | cons hs _ ih =>
    obtain ⟨hfirst, hrest⟩ := List.forall_mem_cons.1 hc
    refine List.forall_mem_cons.2 ⟨?_, ih hrest⟩
    rw [hs.options_eq]
    exact hfirst

end

/-- **Optional sets never cause failure, and flags do not matter to what a satisfied request discloses.**  One more
optional set at any place keeps every key with its query, adds only ids of its first option that is available in full, and
changes nothing when it has no such option.  When something is selected, making any required sets optional selects the
same in the same order. -/
theorem optional_sets_harmless (c : Catalogue) (sets : List CredentialSet) (available : String → Bool)
    (hc : c.Covers sets) :
    ∃ r, resolve c (some sets) available = .ok r ∧
      (∀ before later s, before ++ later = sets → s.required = false → c.Covers [s] →
        ∃ r', resolve c (some (before ++ s :: later)) available = .ok r' ∧
          (∀ id ∈ r.selection.keys, id ∈ r'.selection.keys ∧ r'.selection.get? id = r.selection.get? id) ∧
          (∀ id ∈ r'.selection.keys, id ∉ r.selection.keys → ∃ o, s.FirstFull available o ∧ id ∈ o.ids) ∧
          ((∀ o, ¬ s.FirstFull available o) → r'.selection = r.selection)) ∧
      (r.selection ≠ ∅ → ∀ relaxed, List.Forall₂ CredentialSet.Relaxed sets relaxed →
        ∃ r', resolve c (some relaxed) available = .ok r' ∧ r'.selection = r.selection) := by
  refine ⟨_, resolve_of_covers hc available, ?_, ?_⟩
  · rintro before later s rfl hoptional hs
    have hc' : c.Covers (before ++ s :: later) := Catalogue.covers_insert_iff.2 ⟨hc, hs⟩
    refine ⟨_, resolve_of_covers hc' available, ?_⟩
    by_cases hopen : RequiredFulfilled (before ++ later) available
    · have hopen' := (requiredFulfilled_insert_iff hoptional).2 hopen
      refine ⟨fun id hid => ?_, fun id hid hnew => ?_, fun hnone => ?_⟩
      · rw [mem_keys_of_open hc hopen] at hid
        have hid' := mem_contributions_insert_iff (s := s).2 (Or.inl hid)
        exact ⟨(mem_keys_of_open hc' hopen').2 hid',
          by rw [get?_of_open hc hopen, get?_of_open hc' hopen', if_pos hid, if_pos hid']⟩
      · rw [mem_keys_of_open hc hopen] at hnew
        rw [mem_keys_of_open hc' hopen', mem_contributions_insert_iff] at hid
        exact CredentialSet.mem_contribution_iff.1 (hid.resolve_left hnew)
      · have hf : ¬ s.Fulfilled available := by
          rw [← CredentialSet.exists_firstFull_iff]
          exact not_exists.2 hnone
        rw [selection_of_open hopen, selection_of_open hopen', contributions_insert_of_not_fulfilled hf]
    · have hopen' := mt (requiredFulfilled_insert_iff hoptional).1 hopen
      rw [selection_of_refused hopen, selection_of_refused hopen']
      simp
  · intro hne relaxed hrelaxed
    have hopen : RequiredFulfilled sets available := ((resolveSets_ne_empty_iff hc).1 hne).1
    refine ⟨_, resolve_of_covers (hc.of_relaxed hrelaxed) available, ?_⟩
    rw [selection_of_open (hopen.of_relaxed hrelaxed), selection_of_open hopen, contributions_of_relaxed hrelaxed]

/-- The optional set in front brings `b` forward and adds no key; without the flag the same is selected. -/
theorem optional_sets_harmless_overlapping :
    let available : String → Bool := fun id => id != "c"
    let requiredPair : CredentialSet := ⟨[⟨["a", "b"], by decide⟩], by simp, true, .null⟩
    let optionalSingle : CredentialSet := ⟨[⟨["c"], by decide⟩, ⟨["b"], by decide⟩], by simp, false, .null⟩
    threeQueries.Covers [requiredPair] ∧ threeQueries.Covers [optionalSingle] ∧ optionalSingle.required = false ∧
      ∃ r, resolve threeQueries (some [requiredPair]) available = .ok r ∧ r.selection.keys = ["a", "b"] ∧
        (∃ r', resolve threeQueries (some [optionalSingle, requiredPair]) available = .ok r' ∧
          r'.selection.keys = ["b", "a"] ∧ ∀ id ∈ r.selection.keys, r'.selection.get? id = r.selection.get? id) ∧
        ∃ r', resolve threeQueries (some [{ requiredPair with required := false }]) available = .ok r' ∧
          r'.selection = r.selection := by
  intro available requiredPair optionalSingle
  have hc : threeQueries.Covers [requiredPair] := by
    simp [Catalogue.Covers, Catalogue.ids, threeQueries, requiredPair]
  have hs : threeQueries.Covers [optionalSingle] := by
    simp [Catalogue.Covers, Catalogue.ids, threeQueries, optionalSingle]
  obtain ⟨r, hr, hinsert, hrelax⟩ := optional_sets_harmless threeQueries [requiredPair] available hc
  have hkeys : r.selection.keys = ["a", "b"] := by
    cases hr
    decide
  have hne : r.selection ≠ ∅ := by
    rw [ne_eq, OrderedMap.eq_empty_iff, hkeys]
    simp
  obtain ⟨r', hr', hkept, -⟩ := hinsert [] [requiredPair] optionalSingle rfl rfl hs
  refine ⟨hc, hs, rfl, r, hr, hkeys, ⟨r', hr', ?_, fun id hid => (hkept id hid).2⟩, hrelax hne _ ?_⟩
  · cases hr'
    decide
  · exact .cons ⟨rfl, by simp⟩ .nil

end Disclosure
