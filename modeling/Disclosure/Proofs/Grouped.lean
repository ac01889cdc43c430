import Disclosure.Proofs.Selection

/-!
# Disclosure.Proofs.Grouped — what a grouping discloses

`resolveSets` goes through the sets one after another and carries the selection along.  Here its result is given in
closed form: each set contributes the ids of its first option that is available in full, and the selection is what
these contributions, joined in order, add up to, unless some required set has no such option.

* `firstUnknown?_eq_none_iff`, `resolve_of_covers`: nothing is refused exactly when the catalogue covers the sets.
* `CredentialSet.FirstFull`, `CredentialSet.mem_contribution_iff`: what one set contributes.
* `resolveSets_cons_of_open`, `resolveSets_cons_of_refused`: one step of the run.
* `selection_of_open`, `selection_of_refused`: a whole list of sets.
* `grouped_selection_exact`: the meaning of a resolution with grouping.
-/

namespace Disclosure

/-! ### References -/

/-- Every id that an option names is an id of the catalogue. -/
def Catalogue.Covers (c : Catalogue) (sets : List CredentialSet) : Prop :=
  ∀ s ∈ sets, ∀ o ∈ s.options, ∀ id ∈ o.ids, id ∈ c.ids

theorem mem_references_iff {sets : List CredentialSet} {r : Reference} :
    r ∈ references sets ↔ ∃ s o, sets[r.set]? = some s ∧ s.options[r.option]? = some o ∧ r.id ∈ o.ids := by
  obtain ⟨i, j, id⟩ := r
  simp only [references, List.mem_flatMap, List.mem_map, Prod.exists]
  constructor
  · rintro ⟨s, i', hs, o, j', ho, id', hid, heq⟩
    simp only [Reference.mk.injEq] at heq
    obtain ⟨rfl, rfl, rfl⟩ := heq
    exact ⟨s, o, List.mem_zipIdx_iff_getElem?.1 hs, List.mem_zipIdx_iff_getElem?.1 ho, hid⟩
  · rintro ⟨s, o, hs, ho, hid⟩
    exact ⟨s, i, List.mem_zipIdx_iff_getElem?.2 hs, o, j, List.mem_zipIdx_iff_getElem?.2 ho, id, hid, rfl⟩

theorem firstUnknown?_eq_none_iff {c : Catalogue} {sets : List CredentialSet} :
    firstUnknown? c (some sets) = none ↔ c.Covers sets := by
  simp only [firstUnknown?, List.find?_eq_none, Bool.not_eq_true, Bool.not_eq_false', List.contains_iff_mem]
  constructor
  · intro h s hs o ho id hid
    obtain ⟨i, hi⟩ := List.getElem?_of_mem hs
    obtain ⟨j, hj⟩ := List.getElem?_of_mem ho
    exact h ⟨i, j, id⟩ (mem_references_iff.2 ⟨s, o, hi, hj, hid⟩)
  · intro h r hr
    obtain ⟨s, o, hs, ho, hid⟩ := mem_references_iff.1 hr
    exact h s (List.mem_of_getElem? hs) o (List.mem_of_getElem? ho) r.id hid

/-- A request can be made of a catalogue and a grouping exactly when the catalogue covers the sets, if there are any. -/
theorem firstUnknown?_eq_none_iff_forall {c : Catalogue} {g : Grouping} :
    firstUnknown? c g = none ↔ ∀ sets ∈ g, c.Covers sets := by
  cases g with
  | none => simp [firstUnknown?]
  | some sets => simp [firstUnknown?_eq_none_iff]

/-- A request is refused exactly when there are sets that the catalogue does not cover. -/
theorem exists_resolve_eq_error_iff {c : Catalogue} {g : Grouping} {available : String → Bool} :
    (∃ e, resolve c g available = .error e) ↔ ¬ ∀ sets ∈ g, c.Covers sets := by
  rw [← firstUnknown?_eq_none_iff_forall, resolve]
  cases firstUnknown? c g <;> simp

/-- With grouping a request is resolved exactly when the catalogue covers the sets, and then by going through them. -/
theorem resolve_eq_ok_iff_covers {c : Catalogue} {sets : List CredentialSet} {available : String → Bool}
    {r : Resolution} :
    resolve c (some sets) available = .ok r ↔ c.Covers sets ∧ resolveSets c available 0 ∅ sets = r := by
  rw [← firstUnknown?_eq_none_iff, resolve]
  cases firstUnknown? c (some sets) <;> simp [resolveKnown]

theorem resolve_of_covers {c : Catalogue} {sets : List CredentialSet} (h : c.Covers sets) (available : String → Bool) :
    resolve c (some sets) available = .ok (resolveSets c available 0 ∅ sets) :=
  resolve_eq_ok_iff_covers.2 ⟨h, rfl⟩

/-! ### What one set contributes -/

namespace CredentialSet

variable {s : CredentialSet} {available : String → Bool}

/-- Some option of the set has all its ids available. -/
def Fulfilled (s : CredentialSet) (available : String → Bool) : Prop :=
  ∃ o ∈ s.options, ∀ id ∈ o.ids, available id = true

/-- The ids of the first option that has all its ids available; none when there is no such option. -/
def contribution (s : CredentialSet) (available : String → Bool) : List String :=
  match s.options.find? (fun o => o.ids.all available) with
  | some o => o.ids
  | none => []

/-- What is told of set number `i` when the run goes on behind it. -/
def account (s : CredentialSet) (available : String → Bool) (i : Nat) : Event :=
  match s.choice? available with
  | some o => .chosen i o
  | none => .skipped i

theorem choice?_eq_find? (s : CredentialSet) (available : String → Bool) :
    s.choice? available = s.options.find? (fun o => o.ids.all available) := by
  have h : (fun o : Combination => o.isSatisfied available) = fun o => o.ids.all available := by
    funext o
    exact Combination.inquire_satisfied available o.ids
  rw [choice?, h]

theorem contribution_of_choice? {o : Combination} (h : s.choice? available = some o) :
    s.contribution available = o.ids := by
  rw [choice?_eq_find?] at h
  simp [contribution, h]

theorem contribution_of_choice?_eq_none (h : s.choice? available = none) : s.contribution available = [] := by
  rw [choice?_eq_find?] at h
  simp [contribution, h]

theorem choice?_eq_none_iff : s.choice? available = none ↔ ¬ s.Fulfilled available := by
  rw [choice?, List.find?_eq_none]
  constructor
  · rintro h ⟨o, ho, ha⟩
    exact h o ho (Combination.isSatisfied_iff.2 ha)
  · intro h o ho hs
    exact h ⟨o, ho, Combination.isSatisfied_iff.1 hs⟩

/-- What a set chooses is one of its options, and available in full. -/
theorem choice?_spec {o : Combination} (h : s.choice? available = some o) :
    o ∈ s.options ∧ ∀ id ∈ o.ids, available id = true := by
  unfold choice? at h
  have hs : o.isSatisfied available = true := by simpa using List.find?_some h
  exact ⟨List.mem_of_find?_eq_some h, Combination.isSatisfied_iff.1 hs⟩

theorem exists_choice? (h : s.Fulfilled available) : ∃ o, s.choice? available = some o := by
  cases hc : s.choice? available with
  | none => exact absurd h (choice?_eq_none_iff.1 hc)
  | some o => exact ⟨o, rfl⟩

theorem contribution_eq_nil_iff : s.contribution available = [] ↔ ¬ s.Fulfilled available := by
  constructor
  · intro h hf
    obtain ⟨o, ho⟩ := exists_choice? hf
    rw [contribution_of_choice? ho] at h
    exact o.ids_ne h
  · intro h
    exact contribution_of_choice?_eq_none (choice?_eq_none_iff.2 h)

/-- The option is available in full, and no option before it is. -/
def FirstFull (s : CredentialSet) (available : String → Bool) (o : Combination) : Prop :=
  ∃ before later, s.options = before ++ o :: later ∧ (∀ id ∈ o.ids, available id = true) ∧
    ∀ p ∈ before, ¬ ∀ id ∈ p.ids, available id = true

theorem choice?_eq_some_iff {o : Combination} : s.choice? available = some o ↔ s.FirstFull available o := by
  simp only [choice?, List.find?_eq_some_iff_append, FirstFull, ← Combination.isSatisfied_iff, Bool.not_eq_true',
    Bool.not_eq_true]
  constructor
  · rintro ⟨hfull, before, later, hoptions, hbefore⟩
    exact ⟨before, later, hoptions, hfull, hbefore⟩
  · rintro ⟨before, later, hoptions, hfull, hbefore⟩
    exact ⟨hfull, before, later, hoptions, hbefore⟩

theorem exists_firstFull_iff : (∃ o, s.FirstFull available o) ↔ s.Fulfilled available := by
  constructor
  · rintro ⟨o, hfirst⟩
    exact ⟨o, choice?_spec (choice?_eq_some_iff.2 hfirst)⟩
  · intro hf
    obtain ⟨o, ho⟩ := exists_choice? hf
    exact ⟨o, choice?_eq_some_iff.1 ho⟩

theorem mem_contribution_iff {id : String} :
    id ∈ s.contribution available ↔ ∃ o, s.FirstFull available o ∧ id ∈ o.ids := by
  simp only [← choice?_eq_some_iff]
  cases hc : s.choice? available with
  | none => simp [contribution_of_choice?_eq_none hc]
  | some o => simp [contribution_of_choice? hc]

/-- Whatever a set contributes is named by one of its options, and available. -/
theorem mem_contribution {id : String} (h : id ∈ s.contribution available) :
    available id = true ∧ ∃ o ∈ s.options, id ∈ o.ids := by
  obtain ⟨o, hfirst, hid⟩ := mem_contribution_iff.1 h
  obtain ⟨hmem, ha⟩ := choice?_spec (choice?_eq_some_iff.2 hfirst)
  exact ⟨ha id hid, o, hmem, hid⟩

end CredentialSet

/-! ### The run through the sets -/

theorem Resolution.isSatisfied_iff {r : Resolution} : r.isSatisfied = true ↔ r.selection ≠ ∅ := by
  rw [ne_eq, OrderedMap.eq_empty_iff]
  simp [isSatisfied, OrderedMap.isEmpty, OrderedMap.keys]

section Run

variable {c : Catalogue} {available : String → Bool} {i : Nat} {m : Selection} {s : CredentialSet}
  {sets : List CredentialSet}

/-- Every required set has an option with all its ids available. -/
def RequiredFulfilled (sets : List CredentialSet) (available : String → Bool) : Prop :=
  ∀ s ∈ sets, s.required = true → s.Fulfilled available

/-- What the sets contribute, joined in order. -/
def contributions (sets : List CredentialSet) (available : String → Bool) : List String :=
  sets.flatMap (fun s => s.contribution available)

/-- A set that is optional or fulfilled is told of and adds its contribution, and the run goes on. -/
theorem resolveSets_cons_of_open (h : s.required = true → s.Fulfilled available) :
    resolveSets c available i m (s :: sets) =
      (resolveSets c available (i + 1) (Selection.addAll c m (s.contribution available)) sets).after
        (s.account available i) := by
  rw [resolveSets, CredentialSet.account]
  cases hc : s.choice? available with
  | some o =>
    rw [CredentialSet.contribution_of_choice? hc]
  | none =>
    have hr : s.required = false := by
      by_contra hr
      exact CredentialSet.choice?_eq_none_iff.1 hc (h (by simpa using hr))
    rw [CredentialSet.contribution_of_choice?_eq_none hc, Selection.addAll_nil]
    simp only [hr, Bool.false_eq_true, if_false]

/-- A required set that is not fulfilled ends the run with nothing, whatever came before. -/
theorem resolveSets_cons_of_refused (hr : s.required = true) (hf : ¬ s.Fulfilled available) :
    resolveSets c available i m (s :: sets) = .refusal (.refused i) := by
  rw [resolveSets, CredentialSet.choice?_eq_none_iff.2 hf]
  simp only [hr, if_true]

theorem selection_cons_of_open (h : s.required = true → s.Fulfilled available) :
    (resolveSets c available i m (s :: sets)).selection =
      (resolveSets c available (i + 1) (Selection.addAll c m (s.contribution available)) sets).selection := by
  rw [resolveSets_cons_of_open h]
  rfl

theorem selection_cons_of_refused (hr : s.required = true) (hf : ¬ s.Fulfilled available) :
    (resolveSets c available i m (s :: sets)).selection = ∅ := by
  rw [resolveSets_cons_of_refused hr hf]
  rfl

theorem selection_of_open (h : RequiredFulfilled sets available) :
    (resolveSets c available i m sets).selection = Selection.addAll c m (contributions sets available) := by
  induction sets generalizing i m with
  | nil => rfl
  | cons s rest ih =>
    have hs : s.required = true → s.Fulfilled available := h s (by simp)
    have hrest : RequiredFulfilled rest available := fun t ht => h t (by simp [ht])
    rw [selection_cons_of_open hs, ih hrest, ← Selection.addAll_append]
    rfl

theorem selection_of_refused (h : ¬ RequiredFulfilled sets available) :
    (resolveSets c available i m sets).selection = ∅ := by
  induction sets generalizing i m with
  | nil => exact absurd (fun s hs => absurd hs (by simp)) h
  | cons s rest ih =>
    by_cases hs : s.required = true → s.Fulfilled available
    · rw [selection_cons_of_open hs]
      apply ih
      intro hrest
      refine h (fun t ht => ?_)
      rcases List.mem_cons.1 ht with rfl | ht
      · exact hs
      · exact hrest t ht
    · rw [Classical.not_imp] at hs
      exact selection_cons_of_refused hs.1 hs.2

theorem mem_ids_of_mem_contributions (hc : c.Covers sets) :
    ∀ id ∈ contributions sets available, id ∈ c.ids := by
  intro id hid
  obtain ⟨s, hs, hid⟩ := List.mem_flatMap.1 hid
  obtain ⟨-, o, ho, hid⟩ := CredentialSet.mem_contribution hid
  exact hc s hs o ho id hid

theorem available_of_mem_contributions : ∀ id ∈ contributions sets available, available id = true := by
  intro id hid
  obtain ⟨s, -, hid⟩ := List.mem_flatMap.1 hid
  exact (CredentialSet.mem_contribution hid).1

theorem contributions_ne_nil_iff : contributions sets available ≠ [] ↔ ∃ s ∈ sets, s.Fulfilled available := by
  simp only [contributions, ne_eq, List.flatMap_eq_nil_iff, CredentialSet.contribution_eq_nil_iff]
  push Not
  rfl

/-- The keys are the contributions without repetitions, in the order of the sets. -/
theorem keys_of_open (hc : c.Covers sets) (h : RequiredFulfilled sets available) :
    (resolveSets c available i ∅ sets).selection.keys = (contributions sets available).eraseDups := by
  rw [selection_of_open h, Selection.keys_addAll (mem_ids_of_mem_contributions hc), ← firstSeen_eq_eraseDups]
  rfl

/-- Under a contributed id stands the query of the catalogue, unless a required set is not fulfilled. -/
theorem get?_of_open (hc : c.Covers sets) (h : RequiredFulfilled sets available) (key : String) :
    (resolveSets c available i ∅ sets).selection.get? key =
      if key ∈ contributions sets available then c.get? key else none := by
  rw [selection_of_open h, Selection.get?_addAll (mem_ids_of_mem_contributions hc), OrderedMap.get?_empty]

theorem mem_keys_of_open (hc : c.Covers sets) (h : RequiredFulfilled sets available) {id : String} :
    id ∈ (resolveSets c available i ∅ sets).selection.keys ↔ id ∈ contributions sets available := by
  rw [keys_of_open hc h, List.mem_eraseDups]

/-- Something is selected exactly when the required sets are fulfilled and some set is. -/
theorem resolveSets_ne_empty_iff (hc : c.Covers sets) :
    (resolveSets c available i ∅ sets).selection ≠ ∅ ↔
      RequiredFulfilled sets available ∧ ∃ s ∈ sets, s.Fulfilled available := by
  by_cases h : RequiredFulfilled sets available
  · rw [selection_of_open h, Selection.addAll_ne_empty_iff (mem_ids_of_mem_contributions hc),
      contributions_ne_nil_iff]
    simp [h]
  · simp [selection_of_refused h, h]

end Run

/-! ### The meaning of a resolution with grouping -/

/-- **A grouping discloses the first full option of each set, or nothing.**  A required set without an option that is
available in full leaves nothing, wherever it stands.  Otherwise the keys are the contributions of the sets, each at
its first occurrence, and each key has the one query of the catalogue with that id. -/
theorem grouped_selection_exact (c : Catalogue) (sets : List CredentialSet) (available : String → Bool)
    (hc : c.Covers sets) :
    ∃ r, resolve c (some sets) available = .ok r ∧
      ((∃ s ∈ sets, s.required = true ∧ ¬ s.Fulfilled available) → r.selection = ∅) ∧
      ((∀ s ∈ sets, s.required = true → s.Fulfilled available) →
        r.selection.keys = (sets.flatMap (fun s => s.contribution available)).eraseDups ∧
        r.selection.keys.Nodup ∧
        ∀ id ∈ r.selection.keys, ∃ q ∈ c.entries, q.id = id ∧ r.selection.get? id = some q ∧
          ∀ p ∈ c.entries, p.id = id → p = q) ∧
      (r.isSatisfied = true ↔
        (∀ s ∈ sets, s.required = true → s.Fulfilled available) ∧ ∃ s ∈ sets, s.Fulfilled available) := by
  refine ⟨resolveSets c available 0 ∅ sets, resolve_of_covers hc available, ?_, ?_, ?_⟩
  · rintro ⟨s, hs, hr, hf⟩
    exact selection_of_refused (fun h => hf (h s hs hr))
  · intro h
    refine ⟨keys_of_open hc h, OrderedMap.keys_nodup _, ?_⟩
    rw [selection_of_open h]
    intro id hid
    obtain ⟨-, q, hq, hmem, hqid⟩ := Selection.exists_get?_of_mem_keys (mem_ids_of_mem_contributions hc) hid
    refine ⟨q, hmem, hqid, hq, ?_⟩
    intro p hp hpid
    exact Catalogue.eq_of_id_eq hp hmem (hpid.trans hqid.symm)
  · rw [Resolution.isSatisfied_iff, resolveSets_ne_empty_iff hc]
    rfl

/-- Three queries. -/
def threeQueries : Catalogue :=
  ⟨[{ id := "a", format := "mso_mdoc" }, { id := "b", format := "dc+sd-jwt" }, { id := "c", format := "ldp_vc" }],
    by decide⟩

/-- An optional set whose second option overlaps with the first option of the required set after it. -/
def overlappingSets : List CredentialSet :=
  [⟨[⟨["c"], by decide⟩, ⟨["b"], by decide⟩], by simp, false, .null⟩,
    ⟨[⟨["a", "b", "a"], by decide⟩, ⟨["b"], by decide⟩], by simp, true, .null⟩]

/-- Without `c` the optional set falls back on `b`, and the required set adds `a` behind it. -/
theorem grouped_selection_overlapping :
    threeQueries.Covers overlappingSets ∧
      ∃ r, resolve threeQueries (some overlappingSets) (fun id => id != "c") = .ok r ∧
        r.selection.keys = ["b", "a"] ∧ r.isSatisfied = true := by
  have hc : threeQueries.Covers overlappingSets := by
    simp [Catalogue.Covers, Catalogue.ids, threeQueries, overlappingSets]
  have hf : ∀ s ∈ overlappingSets, s.Fulfilled (fun id => id != "c") := by
    simp [CredentialSet.Fulfilled, overlappingSets]
  obtain ⟨r, hr, -, hkeys, hsat⟩ := grouped_selection_exact threeQueries overlappingSets (fun id => id != "c") hc
  refine ⟨hc, r, hr, ?_, ?_⟩
  · rw [(hkeys (fun s hs _ => hf s hs)).1]
    decide
  · rw [hsat]
    exact ⟨fun s hs _ => hf s hs, _, List.mem_cons_self, hf _ List.mem_cons_self⟩

end Disclosure
