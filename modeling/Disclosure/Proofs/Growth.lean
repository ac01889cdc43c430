import Disclosure.Proofs.Supported
import Disclosure.Proofs.Withdrawal

/-!
# Disclosure.Proofs.Growth — more documents do not hurt

The selection of a request is not monotone: with more documents an earlier option may win.  But whether something is
selected is monotone, since it only asks for options whose ids are all available.  The failures are monotone too: a query
is held against every document of the wallet, so a wallet is refused as soon as one of its documents is.

* `exists_answeredIds_iff`: when every query can be held against a wallet.
* `answeredIds_of_subset`: the answers of a smaller wallet.
* `Request.isSatisfied_mono`: with more ids a satisfied request stays satisfied.
* `Request.decide_mono`: the decisions for two wallets, one of which has all documents of the other.
-/

namespace Disclosure

/-! ### Documents -/

section Answers

variable {q : CredentialQuery} {queries : List CredentialQuery} {wallet fewer more : Wallet}

theorem exists_answers_iff : (∃ found, q.answers wallet = .ok found) ↔ ∀ d ∈ wallet, ∃ hit, d.answers q = .ok hit := by
  induction wallet with
  | nil => simp [CredentialQuery.answers]
  | cons d rest ih =>
    rw [List.forall_mem_cons, ← ih]
    simp only [answers_cons_eq_ok_iff]
    constructor
    · rintro ⟨-, hit, later, hhit, hlater, -⟩
      exact ⟨⟨hit, hhit⟩, later, hlater⟩
    · rintro ⟨⟨hit, hhit⟩, later, hlater⟩
      exact ⟨_, hit, later, hhit, hlater, rfl⟩

/-- Every query can be held against a wallet exactly when it can be held against each document. -/
theorem exists_answeredIds_iff :
    (∃ ids, answeredIds wallet queries = .ok ids) ↔ ∀ q ∈ queries, ∀ d ∈ wallet, ∃ hit, d.answers q = .ok hit := by
  induction queries with
  | nil => simp [answeredIds]
  | cons q rest ih =>
    rw [List.forall_mem_cons, ← ih, ← exists_answers_iff]
    simp only [answeredIds_cons_eq_ok_iff]
    constructor
    · rintro ⟨-, found, later, hfound, hlater, -⟩
      exact ⟨⟨found, hfound⟩, later, hlater⟩
    · rintro ⟨⟨found, hfound⟩, later, hlater⟩
      exact ⟨_, found, later, hfound, hlater, rfl⟩

/-- A wallet answers without failure when a larger one does, and answers no other queries. -/
theorem answeredIds_of_subset {answered' : List String} (hsub : ∀ d ∈ fewer, d ∈ more)
    (h : answeredIds more queries = .ok answered') :
    ∃ answered, answeredIds fewer queries = .ok answered ∧ ∀ id ∈ answered, id ∈ answered' := by
  have hmore : ∀ q ∈ queries, ∀ d ∈ more, ∃ hit, d.answers q = .ok hit := exists_answeredIds_iff.1 ⟨answered', h⟩
  obtain ⟨answered, hfewer⟩ : ∃ answered, answeredIds fewer queries = .ok answered :=
    exists_answeredIds_iff.2 (fun q hq d hd => hmore q hq d (hsub d hd))
  refine ⟨answered, hfewer, fun id hid => ?_⟩
  obtain ⟨q, hq, hqid, d, hd, hanswers⟩ := (mem_answeredIds_iff hfewer).1 hid
  exact (mem_answeredIds_iff h).2 ⟨q, hq, hqid, d, hsub d hd, hanswers⟩

end Answers

namespace Request

variable {r : Request} {available more : String → Bool}

/-! ### Available ids -/

theorem entries_ne_nil_of_isSatisfied (h : (r.resolve available).isSatisfied = true) : r.catalogue.entries ≠ [] := by
  intro hnil
  obtain ⟨ids, hknown, -, heq⟩ := exists_selection_eq_addAll r available
  obtain rfl : ids = [] := by
    rw [List.eq_nil_iff_forall_not_mem]
    intro id hid
    simpa [Catalogue.ids, hnil] using hknown id hid
  exact Resolution.isSatisfied_iff.1 h heq

/-- A request that is satisfied stays so when more ids are available. -/
theorem isSatisfied_mono (hsub : ∀ id, available id = true → more id = true)
    (h : (r.resolve available).isSatisfied = true) : (r.resolve more).isSatisfied = true := by
  have hne := entries_ne_nil_of_isSatisfied h
  rw [Resolution.isSatisfied_iff, selection_ne_empty_iff hne] at h ⊢
  rcases h with ⟨hnone, hall⟩ | ⟨sets, hsets, hrequired, s, hs, hfulfilled⟩
  · exact Or.inl ⟨hnone, fun id hid => hsub id (hall id hid)⟩
  · refine Or.inr ⟨sets, hsets, ?_, s, hs, hfulfilled.of_remaining hsub⟩
    intro t ht hr
    exact (hrequired t ht hr).of_remaining hsub

/-! ### Decisions -/

/-- **More documents and more marked ids do not hurt.**  When the larger wallet can be decided on, so can the smaller one;
what is available from the smaller one is available from the larger one, and if the smaller one satisfies the request, so
does the larger one. -/
theorem decide_mono (r : Request) (fewer more : Wallet) (marked marked' answered' : List String)
    (hdocuments : ∀ d ∈ fewer, d ∈ more) (hmarked : ∀ id ∈ marked, id ∈ marked')
    (h : r.catalogue.available more = .ok answered') :
    (∃ answered, r.catalogue.available fewer = .ok answered ∧ ∀ id ∈ answered, id ∈ answered') ∧
      ∃ d d', r.decide fewer marked = .ok d ∧ r.decide more marked' = .ok d' ∧
        (∀ id ∈ d.available, id ∈ d'.available) ∧
        (d.resolution.isSatisfied = true → d'.resolution.isSatisfied = true) := by
  obtain ⟨answered, hfewer, hsub⟩ := answeredIds_of_subset hdocuments h
  have havailable : ∀ id ∈ firstSeen (answered ++ marked), id ∈ firstSeen (answered' ++ marked') := by
    simp only [mem_firstSeen, List.mem_append]
    rintro id (hid | hid)
    · exact Or.inl (hsub id hid)
    · exact Or.inr (hmarked id hid)
  refine ⟨⟨answered, hfewer, hsub⟩, _, _, decide_eq_ok hfewer, decide_eq_ok h, havailable, ?_⟩
  apply isSatisfied_mono
  intro id hid
  rw [List.contains_iff_mem] at hid ⊢
  exact havailable id hid

/-- Either of two queries will do; the first is preferred. -/
def preferredRequest : Request :=
  ⟨⟨[{ id := "a", format := "jwt_vc" }, { id := "b", format := "ldp_vc" }], by decide⟩,
    some [⟨[⟨["a"], nofun⟩, ⟨["b"], nofun⟩], by simp, true, .null⟩], by decide⟩

/-- With one more document the other option is chosen, and the request stays satisfied. -/
theorem decide_mono_preferred :
    let fewer : Wallet := [{ id := "d2", format := "ldp_vc" }]
    let more : Wallet := [{ id := "d1", format := "jwt_vc" }, { id := "d2", format := "ldp_vc" }]
    (∀ d ∈ fewer, d ∈ more) ∧ preferredRequest.catalogue.available more = .ok ["a", "b"] ∧
      ∃ d d', preferredRequest.decide fewer [] = .ok d ∧ preferredRequest.decide more [] = .ok d' ∧
        d.resolution.selection.keys = ["b"] ∧ d'.resolution.selection.keys = ["a"] ∧
        d'.resolution.isSatisfied = true := by
  intro fewer more
  have hsub : ∀ d ∈ fewer, d ∈ more := by simp [fewer, more]
  have havailable : preferredRequest.catalogue.available more = .ok ["a", "b"] := rfl
  obtain ⟨-, d, d', hd, hd', -, hsatisfied⟩ :=
    decide_mono preferredRequest fewer more [] [] ["a", "b"] hsub (fun _ hid => hid) havailable
  refine ⟨hsub, havailable, d, d', hd, hd', ?_, ?_, ?_⟩
  · cases hd
    decide
  · cases hd'
    decide
  · apply hsatisfied
    cases hd
    decide

end Request

end Disclosure
