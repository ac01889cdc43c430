import Disclosure.Proofs.Resolved

/-!
# Disclosure.Proofs.Withdrawal — what is not disclosed can be withdrawn

The search for the first option that is available in full is not monotone: with more ids an earlier option may win.  But
ids that were not disclosed decided nothing.  When they are withdrawn, an option that was skipped stays unavailable and
the one that was chosen stays available, so every set contributes what it did.

* `find?_of_imp`: the first hit stays the first hit under a condition that is harder to meet.
* `CredentialSet.contribution_of_keeps`, `contributions_of_keeps`: one set, and all of them.
* `Request.selection_of_keeps`: the selection of a request, with grouping or without.
* `selection_withdrawn`: the decision does not change, and deciding it once more gives the same.
-/

namespace Disclosure

/-- The first hit stays the first hit when the condition becomes harder, as long as it still meets it. -/
theorem find?_of_imp {α : Type} {p q : α → Bool} {as : List α} {a : α} (hqp : ∀ b, q b = true → p b = true)
    (h : as.find? p = some a) (ha : q a = true) : as.find? q = some a := by
  obtain ⟨-, before, later, rfl, hbefore⟩ := List.find?_eq_some_iff_append.1 h
  refine List.find?_eq_some_iff_append.2 ⟨ha, before, later, rfl, ?_⟩
  intro b hb
  have hp : p b = false := by simpa using hbefore b hb
  cases hq : q b with
  | false => rfl
  | true =>
    rw [hqp b hq] at hp
    exact absurd hp (by simp)

/-- Of the ids that are available some remain, and those that are kept are among them. -/
structure Keeps (kept : List String) (available remaining : String → Bool) : Prop where
  remaining_of_mem : ∀ id ∈ kept, remaining id = true
  available_of_remaining : ∀ id, remaining id = true → available id = true

namespace Keeps

variable {kept fewer : List String} {available remaining : String → Bool}

theorem of_subset (h : Keeps kept available remaining) (hsub : ∀ id ∈ fewer, id ∈ kept) :
    Keeps fewer available remaining :=
  ⟨fun id hid => h.remaining_of_mem id (hsub id hid), h.available_of_remaining⟩

end Keeps

section Withdrawal

variable {available remaining : String → Bool}

/-! ### One set -/

namespace CredentialSet

variable {s : CredentialSet}

/-- An option that is left was there before. -/
theorem Fulfilled.of_remaining (hsub : ∀ id, remaining id = true → available id = true)
    (h : s.Fulfilled remaining) : s.Fulfilled available := by
  obtain ⟨o, ho, hids⟩ := h
  exact ⟨o, ho, fun id hid => hsub id (hids id hid)⟩

theorem choice?_of_keeps {o : Combination} (h : s.choice? available = some o)
    (hk : Keeps o.ids available remaining) : s.choice? remaining = some o := by
  refine find?_of_imp ?_ h (Combination.isSatisfied_iff.2 hk.remaining_of_mem)
  intro p hp
  rw [Combination.isSatisfied_iff] at hp ⊢
  exact fun id hid => hk.available_of_remaining id (hp id hid)

/-- A set whose contribution is kept still contributes it, and is fulfilled as before. -/
theorem contribution_of_keeps (hk : Keeps (s.contribution available) available remaining) :
    s.contribution remaining = s.contribution available ∧ (s.Fulfilled remaining ↔ s.Fulfilled available) := by
  by_cases hf : s.Fulfilled available
  · obtain ⟨o, ho⟩ := exists_choice? hf
    rw [contribution_of_choice? ho] at hk ⊢
    have hr : s.choice? remaining = some o := choice?_of_keeps ho hk
    refine ⟨contribution_of_choice? hr, fun _ => hf, fun _ => ?_⟩
    obtain ⟨hmem, hids⟩ := choice?_spec hr
    exact ⟨o, hmem, hids⟩
  · have hnot : ¬ s.Fulfilled remaining := fun h => hf (h.of_remaining hk.available_of_remaining)
    rw [contribution_eq_nil_iff.2 hf, contribution_eq_nil_iff.2 hnot]
    exact ⟨rfl, fun h => absurd h hnot, fun h => absurd h hf⟩

end CredentialSet

/-! ### All sets -/

variable {sets : List CredentialSet}

/-- When what the sets contribute is kept, each of them contributes the same. -/
theorem contributions_of_keeps (hk : Keeps (contributions sets available) available remaining) :
    contributions sets remaining = contributions sets available ∧
      (RequiredFulfilled sets remaining ↔ RequiredFulfilled sets available) := by
  have hset : ∀ s ∈ sets, Keeps (s.contribution available) available remaining := by
    intro s hs
    exact hk.of_subset (fun id hid => List.mem_flatMap.2 ⟨s, hs, hid⟩)
  constructor
  · refine List.flatMap_congr (fun s hs => ?_)
    exact (CredentialSet.contribution_of_keeps (hset s hs)).1
  · refine forall₂_congr (fun s hs => ?_)
    rw [(CredentialSet.contribution_of_keeps (hset s hs)).2]

theorem not_requiredFulfilled_of_remaining (hsub : ∀ id, remaining id = true → available id = true)
    (h : ¬ RequiredFulfilled sets available) : ¬ RequiredFulfilled sets remaining := by
  intro hr
  exact h (fun s hs hrequired => (hr s hs hrequired).of_remaining hsub)

/-! ### Requests -/

namespace Request

/-- When what was selected is kept, the same is selected again. -/
theorem selection_of_keeps {r : Request} (hk : Keeps (r.resolve available).selection.keys available remaining) :
    (r.resolve remaining).selection = (r.resolve available).selection := by
  unfold resolve at hk ⊢
  cases hg : r.grouping with
  | none =>
    rw [hg] at hk
    simp only [resolveKnown] at hk ⊢
    by_cases ha : ∀ id ∈ r.catalogue.ids, available id = true
    · rw [resolveAll_of_available ha, Selection.keys_addAll (fun _ hid => hid)] at hk
      have hr : ∀ id ∈ r.catalogue.ids, remaining id = true := by
        intro id hid
        exact hk.remaining_of_mem id (mem_noteAll.2 (Or.inr hid))
      rw [resolveAll_of_available ha, resolveAll_of_available hr]
    · have hr : ¬ ∀ id ∈ r.catalogue.ids, remaining id = true := by
        intro hr
        exact ha (fun id hid => hk.available_of_remaining id (hr id hid))
      rw [resolveAll_of_missing ha, resolveAll_of_missing hr]
  | some sets =>
    rw [hg] at hk
    simp only [resolveKnown] at hk ⊢
    have hc : r.catalogue.Covers sets := covers_of_grouping hg
    by_cases ha : RequiredFulfilled sets available
    · rw [selection_of_open ha, Selection.keys_addAll (mem_ids_of_mem_contributions hc)] at hk
      have hkept : Keeps (contributions sets available) available remaining :=
        hk.of_subset (fun id hid => mem_noteAll.2 (Or.inr hid))
      obtain ⟨heq, hiff⟩ := contributions_of_keeps hkept
      rw [selection_of_open ha, selection_of_open (hiff.2 ha), heq]
    · have hr := not_requiredFulfilled_of_remaining hk.available_of_remaining ha
      rw [selection_of_refused ha, selection_of_refused hr]

end Request

end Withdrawal

/-- **Withdrawing what was not disclosed changes nothing.**  With any ids between those that were disclosed and those that
were available, the same queries are selected in the same order; also with those that were disclosed alone. -/
theorem selection_withdrawn (c : Catalogue) (g : Grouping) (available : String → Bool)
    (hc : ∀ sets ∈ g, c.Covers sets) :
    ∃ r, resolve c g available = .ok r ∧
      (∀ remaining : String → Bool, (∀ id ∈ r.selection.keys, remaining id = true) →
        (∀ id, remaining id = true → available id = true) →
        ∃ s, resolve c g remaining = .ok s ∧ s.selection = r.selection) ∧
      ∃ s, resolve c g (fun id => r.selection.keys.contains id) = .ok s ∧ s.selection = r.selection := by
  let request : Request := ⟨c, g, firstUnknown?_eq_none_iff_forall.2 hc⟩
  have hagain : ∀ remaining, Keeps (request.resolve available).selection.keys available remaining →
      ∃ s, resolve c g remaining = .ok s ∧ s.selection = (request.resolve available).selection := by
    intro remaining hk
    exact ⟨request.resolve remaining, resolve_eq_ok request remaining, Request.selection_of_keeps hk⟩
  refine ⟨request.resolve available, resolve_eq_ok request available, ?_, ?_⟩
  · intro remaining hkept hsub
    exact hagain remaining ⟨hkept, hsub⟩
  · apply hagain
    constructor
    · intro id hid
      exact List.contains_iff_mem.2 hid
    · intro id hid
      exact (Request.exists_get?_of_mem_selection (List.contains_iff_mem.1 hid)).1

/-- A required set whose first option needs one id more than the wallet has. -/
def fallbackSets : List CredentialSet :=
  [⟨[⟨["a", "b"], by decide⟩, ⟨["c"], nofun⟩], by simp, true, .null⟩]

/-- The wallet has `a` without `b`, so `c` is disclosed; without `a` it is disclosed as well. -/
theorem selection_withdrawn_fallback :
    (∀ sets ∈ some fallbackSets, threeQueries.Covers sets) ∧
      ∃ r, resolve threeQueries (some fallbackSets) (fun id => id != "b") = .ok r ∧ r.selection.keys = ["c"] ∧
        ∃ s, resolve threeQueries (some fallbackSets) (fun id => id == "c") = .ok s ∧ s.selection = r.selection := by
  have hc : ∀ sets ∈ some fallbackSets, threeQueries.Covers sets := by
    simp [Catalogue.Covers, Catalogue.ids, threeQueries, fallbackSets]
  obtain ⟨r, hr, hwithdrawn, -⟩ := selection_withdrawn threeQueries (some fallbackSets) (fun id => id != "b") hc
  have hkeys : r.selection.keys = ["c"] := by
    cases hr
    decide
  refine ⟨hc, r, hr, hkeys, hwithdrawn (fun id => id == "c") ?_ ?_⟩
  · simp [hkeys]
  · simp +contextual

end Disclosure
