import Disclosure.Proofs.Acceptance
import Disclosure.Proofs.Resolved

/-!
# Disclosure.Proofs.Choosable — which options of a set can be chosen

The first option that is available in full is chosen.  An option that names all ids of an option before it never is: a
wallet that has its ids has those of the earlier one as well.  Every other option is chosen by the wallet that has its ids
and nothing else.  So the options that shadow an earlier one can be left out of every set, and no resolution changes.

* `CredentialSet.ChosenAt`: option number `j` is chosen.
* `chosenAt_own_ids`, `not_subset_of_chosenAt`: who chooses an option, and why nobody does.
* `find?_unshadowed`: the search finds the same without the options that are left out.
* `resolveSets_of_agree`: a run depends on the flags and choices of its sets only.
* `choosable_options`: the options that can be chosen, and requests without the others.
-/

namespace Disclosure

/-! ### Who chooses an option -/

namespace CredentialSet

/-- Option number `j` is available in full, and no option before it is. -/
def ChosenAt (s : CredentialSet) (available : String → Bool) (j : Nat) : Prop :=
  (∃ o, s.options[j]? = some o ∧ ∀ id ∈ o.ids, available id = true) ∧
    ∀ i < j, ∀ p, s.options[i]? = some p → ¬ ∀ id ∈ p.ids, available id = true

variable {s t : CredentialSet} {available : String → Bool} {j : Nat} {o : Combination}

/-- The search returns the option at the place where the first full one stands. -/
theorem choice?_eq_some_iff_chosenAt :
    s.choice? available = some o ↔ ∃ j, s.options[j]? = some o ∧ s.ChosenAt available j := by
  simp only [choice?, List.find?_eq_some_iff_getElem, Combination.isSatisfied_iff, Bool.not_eq_true',
    Bool.eq_false_iff, ne_eq]
  constructor
  · rintro ⟨hfull, j, hj, rfl, hbefore⟩
    refine ⟨j, List.getElem?_eq_getElem hj, ⟨s.options[j], List.getElem?_eq_getElem hj, hfull⟩, ?_⟩
    intro i hi p hp
    obtain ⟨hlt, rfl⟩ := List.getElem?_eq_some_iff.1 hp
    exact hbefore i hi
  · rintro ⟨j, hj, ⟨p, hp, hfull⟩, hbefore⟩
    obtain rfl : o = p := Option.some.inj (hj.symm.trans hp)
    obtain ⟨hlt, hget⟩ := List.getElem?_eq_some_iff.1 hj
    exact ⟨hfull, j, hlt, hget, fun i hi => hbefore i hi _ (List.getElem?_eq_getElem (Nat.lt_trans hi hlt))⟩

/-- An option that is chosen does not name all ids of an option before it. -/
theorem not_subset_of_chosenAt (h : s.ChosenAt available j) (ho : s.options[j]? = some o) :
    ∀ i < j, ∀ p, s.options[i]? = some p → ¬ p.ids ⊆ o.ids := by
  obtain ⟨⟨o', ho', hfull⟩, hbefore⟩ := h
  obtain rfl : o = o' := Option.some.inj (ho.symm.trans ho')
  intro i hi p hp hsub
  exact hbefore i hi p hp (fun id hid => hfull id (hsub hid))

/-- Without such an earlier option, a wallet with just the ids of the option chooses it. -/
theorem chosenAt_own_ids (ho : s.options[j]? = some o)
    (h : ∀ i < j, ∀ p, s.options[i]? = some p → ¬ p.ids ⊆ o.ids) :
    s.ChosenAt (fun id => o.ids.contains id) j := by
  refine ⟨⟨o, ho, fun id hid => List.contains_iff_mem.2 hid⟩, ?_⟩
  intro i hi p hp hfull
  exact h i hi p hp (fun id hid => List.contains_iff_mem.1 (hfull id hid))

end CredentialSet

/-! ### Options that are never chosen -/

/-- The options that do not name all ids of an option before them; the options of `seen` are before all of them. -/
def unshadowed (seen : List Combination) : List Combination → List Combination
  | [] => []
  | o :: rest =>
    if ∃ p ∈ seen, p.ids ⊆ o.ids then unshadowed (o :: seen) rest else o :: unshadowed (o :: seen) rest

section Unshadowed

variable {seen options : List Combination} {o : Combination} {available : String → Bool}

theorem unshadowed_sublist : (unshadowed seen options).Sublist options := by
  induction options generalizing seen with
  | nil => exact List.Sublist.slnil
  | cons first rest ih =>
    unfold unshadowed
    split
    · exact ih.cons first
    · exact ih.cons_cons first

theorem not_subset_of_mem_unshadowed (h : o ∈ unshadowed seen options) : ∀ p ∈ seen, ¬ p.ids ⊆ o.ids := by
  induction options generalizing seen with
  | nil => simp [unshadowed] at h
  | cons first rest ih =>
    unfold unshadowed at h
    split at h
    · exact fun p hp => ih h p (List.mem_cons_of_mem first hp)
    · rename_i hkept
      rcases List.mem_cons.1 h with rfl | hrest
      · exact fun p hp hsub => hkept ⟨p, hp, hsub⟩
      · exact fun p hp => ih hrest p (List.mem_cons_of_mem first hp)

/-- None of the options that are left names all ids of one before it. -/
theorem pairwise_unshadowed : (unshadowed seen options).Pairwise (fun p o => ¬ p.ids ⊆ o.ids) := by
  induction options generalizing seen with
  | nil => exact List.Pairwise.nil
  | cons first rest ih =>
    unfold unshadowed
    split
    · exact ih
    · exact .cons (fun o ho => not_subset_of_mem_unshadowed ho first List.mem_cons_self) ih

/-- An option that is left is found by the wallet that has its ids and nothing else. -/
theorem find?_of_mem_unshadowed (h : o ∈ unshadowed seen options) :
    options.find? (fun p => p.isSatisfied (fun id => o.ids.contains id)) = some o := by
  have hfull : ∀ p : Combination, p.isSatisfied (fun id => o.ids.contains id) = true ↔ p.ids ⊆ o.ids := by
    intro p
    rw [Combination.isSatisfied_iff]
    exact forall₂_congr (fun id _ => List.contains_iff_mem)
  induction options generalizing seen with
  | nil => simp [unshadowed] at h
  | cons first rest ih =>
    have hlater : o ∈ unshadowed (first :: seen) rest →
        (first :: rest).find? (fun p => p.isSatisfied (fun id => o.ids.contains id)) = some o := by
      intro hrest
      have hno : first.isSatisfied (fun id => o.ids.contains id) = false := by
        rw [← Bool.not_eq_true, hfull]
        exact not_subset_of_mem_unshadowed hrest first List.mem_cons_self
      simp only [List.find?_cons, hno, ih hrest]
    unfold unshadowed at h
    split at h
    · exact hlater h
    · rcases List.mem_cons.1 h with rfl | hrest
      · have hown : o.isSatisfied (fun id => o.ids.contains id) = true := (hfull o).2 (List.Subset.refl o.ids)
        simp only [List.find?_cons, hown]
      · exact hlater hrest

/-- Where no option of `seen` is available in full, an option that is left out is not either. -/
theorem find?_unshadowed (h : ∀ p ∈ seen, p.isSatisfied available = false) :
    (unshadowed seen options).find? (fun o => o.isSatisfied available) =
      options.find? (fun o => o.isSatisfied available) := by
  induction options generalizing seen with
  | nil => rfl
  | cons first rest ih =>
    unfold unshadowed
    cases hfirst : first.isSatisfied available with
    | true =>
      have hkept : ¬ ∃ p ∈ seen, p.ids ⊆ first.ids := by
        rintro ⟨p, hp, hsub⟩
        have hfull : p.isSatisfied available = true :=
          Combination.isSatisfied_iff.2 (fun id hid => Combination.isSatisfied_iff.1 hfirst id (hsub hid))
        rw [h p hp] at hfull
        cases hfull
      simp only [if_neg hkept, List.find?_cons, hfirst]
    | false =>
      have hseen : ∀ p ∈ first :: seen, p.isSatisfied available = false := List.forall_mem_cons.2 ⟨hfirst, h⟩
      split
      · simp only [List.find?_cons, hfirst, ih hseen]
      · simp only [List.find?_cons, hfirst, ih hseen]

end Unshadowed

namespace CredentialSet

/-- The set without the options that name all ids of an option before them. -/
def withoutShadowed (s : CredentialSet) : CredentialSet :=
  { s with
    options := unshadowed [] s.options
    options_ne := by
      obtain ⟨first, rest, h⟩ := List.exists_cons_of_ne_nil s.options_ne
      simp [h, unshadowed] }

variable {s : CredentialSet} {available : String → Bool} {o : Combination}

theorem choice?_withoutShadowed (s : CredentialSet) (available : String → Bool) :
    s.withoutShadowed.choice? available = s.choice? available :=
  find?_unshadowed (by simp)

/-- The options that are left are those that some wallet chooses. -/
theorem mem_withoutShadowed_iff :
    o ∈ s.withoutShadowed.options ↔ ∃ available, s.choice? available = some o := by
  constructor
  · intro h
    exact ⟨_, find?_of_mem_unshadowed h⟩
  · rintro ⟨available, h⟩
    rw [← choice?_withoutShadowed] at h
    exact (choice?_spec h).1

end CredentialSet

/-! ### Requests without them -/

section Requests

variable {c : Catalogue} {available : String → Bool} {sets fewer : List CredentialSet}

/-- A run depends on the flag and the choice of each set only. -/
theorem resolveSets_of_agree
    (h : List.Forall₂ (fun s t => t.required = s.required ∧ t.choice? available = s.choice? available) sets fewer)
    (i : Nat) (m : Selection) : resolveSets c available i m fewer = resolveSets c available i m sets := by
  induction h generalizing i m with
  | nil => rfl
  | cons hst _ ih =>
    obtain ⟨hrequired, hchoice⟩ := hst
    simp only [resolveSets, hrequired, hchoice, ih]

/-- Some of the sets are without the options that shadow an earlier one, and the others are as they were. -/
def Lightened (sets fewer : List CredentialSet) : Prop :=
  List.Forall₂ (fun s t => t = s ∨ t = s.withoutShadowed) sets fewer

theorem Lightened.covers (h : Lightened sets fewer) (hc : c.Covers sets) : c.Covers fewer := by
  induction h with
  | nil => exact hc
  | cons hst _ ih =>
    obtain ⟨hfirst, hrest⟩ := List.forall_mem_cons.1 hc
    refine List.forall_mem_cons.2 ⟨?_, ih hrest⟩
    rcases hst with rfl | rfl
    · exact hfirst
    · exact fun o ho => hfirst o (unshadowed_sublist.mem ho)

theorem Lightened.resolveSets_eq (h : Lightened sets fewer) (i : Nat) (m : Selection) :
    resolveSets c available i m fewer = resolveSets c available i m sets := by
  refine resolveSets_of_agree (h.imp (fun s t hst => ?_)) i m
  rcases hst with rfl | rfl
  · exact ⟨rfl, rfl⟩
  · exact ⟨rfl, CredentialSet.choice?_withoutShadowed s available⟩

end Requests

/-- **An option can be chosen exactly when it does not name all ids of an option before it.**  Then the wallet with just
its ids chooses it.  The options that can be chosen are what is left of a set when those that shadow an earlier one are
taken away, and a request in which this is done to any of its sets is resolved as before, for every wallet. -/
theorem choosable_options (s : CredentialSet) :
    (∀ available o, s.choice? available = some o ↔ ∃ j, s.options[j]? = some o ∧ s.ChosenAt available j) ∧
    (∀ (j : Nat) (o : Combination), s.options[j]? = some o →
      ((∃ available, s.ChosenAt available j) ↔ ∀ i < j, ∀ p, s.options[i]? = some p → ¬ p.ids ⊆ o.ids) ∧
      ((∃ available, s.ChosenAt available j) → s.ChosenAt (fun id => o.ids.contains id) j)) ∧
    (s.withoutShadowed.options.Sublist s.options ∧
      s.withoutShadowed.options.Pairwise (fun p o => ¬ p.ids ⊆ o.ids) ∧
      ∀ o, o ∈ s.withoutShadowed.options ↔ ∃ available, s.choice? available = some o) ∧
    ∀ (r : Request) (sets fewer : List CredentialSet), r.grouping = some sets → Lightened sets fewer →
      ∃ r', Request.ofParts r.catalogue (some fewer) = .ok r' ∧ ∀ available, r'.resolve available = r.resolve available := by
  refine ⟨fun available o => CredentialSet.choice?_eq_some_iff_chosenAt, fun j o ho => ?_,
    ⟨unshadowed_sublist, pairwise_unshadowed, fun o => CredentialSet.mem_withoutShadowed_iff⟩, ?_⟩
  · have hearlier : ∀ available, s.ChosenAt available j → ∀ i < j, ∀ p, s.options[i]? = some p → ¬ p.ids ⊆ o.ids :=
      fun _ h => CredentialSet.not_subset_of_chosenAt h ho
    refine ⟨⟨?_, fun h => ⟨_, CredentialSet.chosenAt_own_ids ho h⟩⟩, ?_⟩
    · rintro ⟨available, h⟩
      exact hearlier available h
    · rintro ⟨available, h⟩
      exact CredentialSet.chosenAt_own_ids ho (hearlier available h)
  · intro r sets fewer hg hfewer
    have hc : r.catalogue.Covers fewer := hfewer.covers (Request.covers_of_grouping hg)
    have hknown : firstUnknown? r.catalogue (some fewer) = none := firstUnknown?_eq_none_iff.2 hc
    refine ⟨⟨r.catalogue, some fewer, hknown⟩, Request.ofParts_eq_ok_iff.2 ⟨rfl, rfl⟩, fun available => ?_⟩
    simp only [Request.resolve, hg, resolveKnown]
    exact hfewer.resolveSets_eq 0 ∅

/-- A set whose second option names all ids of the first. -/
def shadowingSet : CredentialSet :=
  ⟨[⟨["a"], by decide⟩, ⟨["b", "a"], by decide⟩, ⟨["b"], by simp⟩], by simp, true, .null⟩

/-- A request with that set alone. -/
def shadowingRequest : Request := ⟨threeQueries, some [shadowingSet], by decide⟩

/-- The second option is never chosen, and the third one is by a wallet with `b`; without the second option the request
is resolved as before. -/
theorem choosable_options_shadowing :
    (¬ ∃ available, shadowingSet.ChosenAt available 1) ∧ shadowingSet.ChosenAt (fun id => ["b"].contains id) 2 ∧
      shadowingSet.withoutShadowed.options.map Combination.ids = [["a"], ["b"]] ∧
      shadowingRequest.grouping = some [shadowingSet] ∧ Lightened [shadowingSet] [shadowingSet.withoutShadowed] ∧
      ∃ r', Request.ofParts threeQueries (some [shadowingSet.withoutShadowed]) = .ok r' ∧
        ∀ available, r'.resolve available = shadowingRequest.resolve available := by
  have hsecond : shadowingSet.options[1]? = some ⟨["b", "a"], by decide⟩ := rfl
  have hthird : shadowingSet.options[2]? = some ⟨["b"], by decide⟩ := rfl
  have hfewer : Lightened [shadowingSet] [shadowingSet.withoutShadowed] := .cons (Or.inr rfl) .nil
  obtain ⟨-, hoptions, -, hrequests⟩ := choosable_options shadowingSet
  refine ⟨?_, ?_, by decide, rfl, hfewer, hrequests shadowingRequest _ _ rfl hfewer⟩
  · rw [(hoptions 1 _ hsecond).1]
    intro h
    exact h 0 (by decide) _ rfl (by decide)
  · refine (hoptions 2 _ hthird).2 ((hoptions 2 _ hthird).1.2 ?_)
    intro i hi p hp
    obtain rfl | rfl : i = 0 ∨ i = 1 := by omega
    · cases hp
      decide
    · cases hp
      decide

end Disclosure
