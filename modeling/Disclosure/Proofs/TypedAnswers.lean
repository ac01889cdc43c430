import Disclosure.Proofs.Explained

/-!
# Disclosure.Proofs.TypedAnswers — which types a document has to carry

A query for a mobile document names one type, and only a document of just that type answers it.  A query for an SD-JWT
credential lists types, and a document answers it when its own type says the same as one of them.  The list may hold
more than texts: then a document without a type can answer, since null says the same as null.

* `Value.text_iff_of_same?`: of two values that say the same both are the same text, or neither is a text.
* `Document.answers_mobile_iff`, `Document.answers_sdJwt_iff`: what an answer comes down to, when every listed type is a
  text.
* `answers_carry_types`: all answers of a wallet to a request.
* `untyped_document_answers`: a document without a type answers a query that lists null.
-/

namespace Disclosure

/-! ### Texts that say the same -/

namespace Scalar

theorem sense?_eq_text_iff {s : Scalar} {t : Text} : s.sense? = some (.text t) ↔ s = .text t := by
  cases s with
  | float x => cases x <;> simp [sense?]
  | _ => simp [sense?]

theorem sense?_eq_null_iff {s : Scalar} : s.sense? = some .null ↔ s = .null := by
  cases s with
  | float x => cases x <;> simp [sense?]
  | _ => simp [sense?]

theorem text_iff_of_equiv {a b : Scalar} (h : a.equiv b = true) (t : Text) : a = .text t ↔ b = .text t := by
  obtain ⟨s, ha, hb⟩ := equiv_iff.1 h
  rw [← sense?_eq_text_iff, ← sense?_eq_text_iff, ha, hb]

theorem eq_null_of_equiv {a : Scalar} (h : a.equiv .null = true) : a = .null := by
  obtain ⟨s, ha, hb⟩ := equiv_iff.1 h
  rw [← sense?_eq_null_iff, ha, ← hb]
  rfl

end Scalar

namespace Value

variable {v w : Value}

/-- Values that say the same are both scalars, and equal ones, or neither is a scalar. -/
theorem scalars_of_same? (h : w.same? v = some true) :
    (∃ a b, w.untie = .scalar a ∧ v.untie = .scalar b ∧ a.equiv b = true) ∨
      ((∀ a, w.untie ≠ .scalar a) ∧ ∀ b, v.untie ≠ .scalar b) := by
  unfold same? at h
  split at h
  · rw [deepestComparison, sameWithin] at h
    split at h
    · rename_i a b ha hb
      exact Or.inl ⟨a, b, ha, hb, Option.some.inj h⟩
    all_goals simp_all
  · rename_i htied
    rw [Bool.or_eq_true, not_or, Bool.not_eq_true, Bool.not_eq_true] at htied
    rw [untie_eq_self htied.1, untie_eq_self htied.2]
    have hequiv : w.equiv v = true := Option.some.inj h
    cases w <;> cases v <;> simp_all [equiv]

/-- Of two values that say the same both are the same text, or neither is a text. -/
theorem text_iff_of_same? (h : w.same? v = some true) (t : Text) : w.untie = .text t ↔ v.untie = .text t := by
  rcases scalars_of_same? h with ⟨a, b, ha, hb, hab⟩ | ⟨ha, hb⟩
  · rw [ha, hb, scalar.injEq, scalar.injEq]
    exact Scalar.text_iff_of_equiv hab t
  · exact iff_of_false (ha _) (hb _)

theorem untie_eq_null_of_same? (h : w.same? .null = some true) : w.untie = .null := by
  rcases scalars_of_same? h with ⟨a, b, ha, hb, hab⟩ | ⟨-, hb⟩
  · obtain rfl : Scalar.null = b := scalar.inj hb
    rw [ha, Scalar.eq_null_of_equiv hab]
  · exact absurd rfl (hb .null)

/-- A text can be compared with every value. -/
theorem same?_text_eq_some (t : Text) (v : Value) : ∃ b, (text t).same? v = some b := by
  unfold same?
  split
  · rw [deepestComparison, sameWithin, untie_scalar]
    split <;> simp_all
  · exact ⟨_, rfl⟩

theorem same?_text_iff {t : Text} : (text t).same? v = some true ↔ v.untie = .text t := by
  constructor
  · intro h
    exact (text_iff_of_same? h t).1 rfl
  · intro h
    unfold same?
    split
    · rw [deepestComparison, sameWithin, untie_scalar, h]
      simp
    · rename_i htied
      rw [Bool.or_eq_true, not_or, Bool.not_eq_true, Bool.not_eq_true] at htied
      rw [untie_eq_self htied.2] at h
      simp [h, equiv]

theorem exists_of_among? {items : List Value} (h : v.among? items = some true) :
    ∃ w ∈ items, w.same? v = some true := by
  induction items with
  | nil => simp [among?] at h
  | cons w rest ih =>
    rw [among?] at h
    obtain ⟨b, hb, hrest⟩ := Option.bind_eq_some_iff.1 h
    cases b with
    | true => exact ⟨w, by simp, hb⟩
    | false =>
      obtain ⟨x, hx, hsame⟩ := ih (by simpa using hrest)
      exact ⟨x, by simp [hx], hsame⟩

/-- A value is among texts exactly when it is one of them. -/
theorem among?_texts_iff {items : List Value} (hi : ∀ w ∈ items, ∃ t, w = .text t) :
    v.among? items = some true ↔ ∃ t, .text t ∈ items ∧ v.untie = .text t := by
  constructor
  · intro h
    obtain ⟨w, hw, hsame⟩ := exists_of_among? h
    obtain ⟨t, rfl⟩ := hi w hw
    exact ⟨t, hw, same?_text_iff.1 hsame⟩
  · rintro ⟨t, ht, hv⟩
    induction items with
    | nil => simp at ht
    | cons w rest ih =>
      obtain ⟨u, rfl⟩ := hi w (by simp)
      obtain ⟨b, hb⟩ := same?_text_eq_some u v
      rw [among?, hb]
      cases b with
      | true => rfl
      | false =>
        -- the first item is another text, so the one that is sought comes later
        have hne : (Value.text t) ≠ .text u := by
          intro heq
          rw [← heq, same?_text_iff.2 hv] at hb
          cases hb
        have hrest : (Value.text t) ∈ rest := by
          rcases List.mem_cons.1 ht with heq | hrest
          · exact absurd heq hne
          · exact hrest
        exact ih (fun x hx => hi x (by simp [hx])) hrest

theorem equiv_text_iff {t : Text} : v.equiv (.text t) = true ↔ v = .text t := by
  cases v with
  | scalar a =>
    rw [equiv, scalar.injEq]
    constructor
    · intro h
      exact (Scalar.text_iff_of_equiv h t).2 rfl
    · rintro rfl
      exact Scalar.equiv_text.2 rfl
  | _ => simp [equiv]

end Value

/-! ### Answers to one query -/

section Answers

variable {q : CredentialQuery} {d : Document}

/-- The credential types that a query lists, whatever stands in the list. -/
def CredentialQuery.listedTypes (q : CredentialQuery) : List Value := (q.metadata.get "vct_values").items

theorem CredentialQuery.vctValues?_eq_some_iff {accepted : List Value} :
    q.vctValues? = some accepted ↔ q.listedTypes = accepted ∧ accepted ≠ [] := by
  unfold vctValues? listedTypes Value.items
  split
  · rename_i w rest h
    simp only [h, Option.some.injEq]
    constructor
    · rintro rfl
      simp
    · exact And.left
  · rename_i h
    simp only [reduceCtorEq, false_iff, not_and, not_not]
    intro hitems
    split at hitems
    · rename_i items hlist
      cases items with
      | nil => exact hitems.symm
      | cons w rest => exact absurd hlist (h w rest)
    · exact hitems.symm

/-- A document of the type that the query names, and of no other, answers a query for a mobile document. -/
theorem Document.answers_mobile_iff (hq : q.format = mobileDocumentFormat) :
    d.answers q = .ok true ↔ d.format = q.format ∧
      ∃ t, t ≠ [] ∧ d.doctype = .text t ∧ q.metadata.get "doctype_value" = .text t := by
  unfold answers
  by_cases hformat : d.format = q.format
  · have hdoctype : ∀ t, q.doctype? = some t ↔ q.metadata.get "doctype_value" = .text t ∧ t ≠ [] :=
      fun t => Value.nonemptyText?_eq_some_iff
    rw [if_neg (not_not.2 hformat), if_pos hq]
    cases ht : q.doctype? with
    | none =>
      refine iff_of_false (by simp) ?_
      rintro ⟨-, t, hne, -, hmeta⟩
      rw [(hdoctype t).2 ⟨hmeta, hne⟩] at ht
      cases ht
    | some t =>
      obtain ⟨hmeta, hne⟩ := (hdoctype t).1 ht
      simp only [Except.ok.injEq, Value.equiv_text_iff]
      constructor
      · intro hd
        exact ⟨hformat, t, hne, hd, hmeta⟩
      · rintro ⟨-, u, -, hd, hu⟩
        rw [hmeta] at hu
        rw [hd, hu]
  · rw [if_pos hformat]
    simp [hformat]

theorem Document.answers_sdJwt_iff_among? (hq : q.format = sdJwtFormat) :
    d.answers q = .ok true ↔ d.format = q.format ∧ q.listedTypes ≠ [] ∧ d.vct.among? q.listedTypes = some true := by
  have hother : q.format ≠ mobileDocumentFormat := by
    rw [hq]
    decide
  unfold answers
  by_cases hformat : d.format = q.format
  · rw [if_neg (not_not.2 hformat), if_neg hother, if_pos hq]
    cases hv : q.vctValues? with
    | none =>
      refine iff_of_false (by simp) ?_
      rintro ⟨-, hne, -⟩
      rw [CredentialQuery.vctValues?_eq_some_iff.2 ⟨rfl, hne⟩] at hv
      cases hv
    | some accepted =>
      obtain ⟨rfl, hne⟩ := CredentialQuery.vctValues?_eq_some_iff.1 hv
      dsimp only
      cases d.vct.among? q.listedTypes <;> simp [hformat, hne]
  · rw [if_pos hformat]
    simp [hformat]

/-- When all listed types are texts, the documents of one of these types answer a query for an SD-JWT credential. -/
theorem Document.answers_sdJwt_iff (hq : q.format = sdJwtFormat) (htexts : ∀ w ∈ q.listedTypes, ∃ t, w = .text t) :
    d.answers q = .ok true ↔ d.format = q.format ∧ ∃ t, .text t ∈ q.listedTypes ∧ d.vct.untie = .text t := by
  rw [answers_sdJwt_iff_among? hq, Value.among?_texts_iff htexts]
  constructor
  · rintro ⟨hformat, -, ht⟩
    exact ⟨hformat, ht⟩
  · rintro ⟨hformat, t, ht, hv⟩
    exact ⟨hformat, List.ne_nil_of_mem ht, t, ht, hv⟩

theorem Document.exists_listed_of_answers (hq : q.format = sdJwtFormat) (h : d.answers q = .ok true) :
    ∃ w ∈ q.listedTypes, w.same? d.vct = some true :=
  Value.exists_of_among? ((answers_sdJwt_iff_among? hq).1 h).2.2

end Answers

/-! ### Answers of a wallet -/

/-- **A document that answers a typed query carries a type that the query asks for.**  For a mobile document it is the
text that the query names.  For an SD-JWT credential it says the same as a listed value: if one of the two is a text, both
are the same text, and a document without a type answers only where null is listed.  When every listed value is a text,
the id of the query is available from a wallet exactly when some document of the format has one of these texts as its
type. -/
theorem answers_carry_types (r : Request) (wallet : Wallet) :
    (∀ (q : CredentialQuery) (d : Document), d.answers q = .ok true →
      (q.format = mobileDocumentFormat →
        ∃ t, t ≠ [] ∧ d.doctype = .text t ∧ q.metadata.get "doctype_value" = .text t) ∧
      (q.format = sdJwtFormat →
        (∃ w ∈ q.listedTypes, w.same? d.vct = some true ∧ ∀ t, w.untie = .text t ↔ d.vct.untie = .text t) ∧
        (d.vct = .null → ∃ w ∈ q.listedTypes, w.untie = .null))) ∧
    ∀ q ∈ r.catalogue.entries, q.format = sdJwtFormat → (∀ w ∈ q.listedTypes, ∃ t, w = .text t) →
      (∀ d : Document, d.answers q = .ok true ↔
        d.format = q.format ∧ ∃ t, .text t ∈ q.listedTypes ∧ d.vct.untie = .text t) ∧
      ∀ answered, r.catalogue.available wallet = .ok answered →
        (q.id ∈ answered ↔
          ∃ d ∈ wallet, d.format = q.format ∧ ∃ t, .text t ∈ q.listedTypes ∧ d.vct.untie = .text t) := by
  constructor
  · intro q d h
    refine ⟨fun hq => ((Document.answers_mobile_iff hq).1 h).2, fun hq => ?_⟩
    obtain ⟨w, hw, hsame⟩ := Document.exists_listed_of_answers hq h
    refine ⟨⟨w, hw, hsame, Value.text_iff_of_same? hsame⟩, fun hnull => ⟨w, hw, ?_⟩⟩
    rw [hnull] at hsame
    exact Value.untie_eq_null_of_same? hsame
  · intro q hmem hq htexts
    have hanswers : ∀ d : Document, d.answers q = .ok true ↔
        d.format = q.format ∧ ∃ t, .text t ∈ q.listedTypes ∧ d.vct.untie = .text t :=
      fun _ => Document.answers_sdJwt_iff hq htexts
    refine ⟨hanswers, fun answered h => ?_⟩
    rw [Catalogue.mem_available_iff h hmem, ← List.isEmpty_eq_false_iff, List.isEmpty_eq_false_iff_exists_mem]
    simp only [List.mem_filter, CredentialQuery.admits_eq_true_iff, hanswers]

/-- The one document of the wallet has the type that the second query lists. -/
theorem answers_carry_types_listed :
    let q : CredentialQuery :=
      { id := "pid\n", format := "dc+sd-jwt", metadata := [(.text "vct_values", .list [.text "urn:eudi:pid:1"])] }
    let d : Document := { id := "d1", format := "dc+sd-jwt", vct := .text "urn:eudi:pid:1" }
    q ∈ Request.carriedRequest.catalogue.entries ∧ d ∈ Request.pidWallet ∧ d.answers q = .ok true ∧
      (∃ w ∈ q.listedTypes, w.same? d.vct = some true) ∧
      ∀ answered, Request.carriedRequest.catalogue.available Request.pidWallet = .ok answered → q.id ∈ answered := by
  intro q d
  have hmem : q ∈ Request.carriedRequest.catalogue.entries := by simp [Request.carriedRequest, q]
  have htexts : ∀ w ∈ q.listedTypes, ∃ t, w = .text t := by
    simp [q, CredentialQuery.listedTypes, Value.items, Fields.get, Fields.field?]
  obtain ⟨htypes, hlisted⟩ := answers_carry_types Request.carriedRequest Request.pidWallet
  obtain ⟨hanswers, havailable⟩ := hlisted q hmem rfl htexts
  have hd : d.answers q = .ok true := rfl
  obtain ⟨⟨w, hw, hsame, -⟩, -⟩ := (htypes q d hd).2 rfl
  have hd' : d ∈ Request.pidWallet := by simp [Request.pidWallet, d]
  refine ⟨hmem, hd', hd, ⟨w, hw, hsame⟩, fun answered h => ?_⟩
  exact (havailable answered h).2 ⟨d, hd', (hanswers d).1 hd⟩

/-! ### A document without a type -/

/-- A query for an SD-JWT credential that lists null instead of a type. -/
def untypedRequestData : Value :=
  .object [(.text "credentials", .list [.object
    [(.text "id", .text "a"), (.text "format", .text "dc+sd-jwt"),
     (.text "meta", .object [(.text "vct_values", .list [.null])])]])]

/-- A wallet with an SD-JWT credential that has no type. -/
def untypedWalletData : Value :=
  .object [(.text "documents", .list [.object [(.text "id", .text "d1"), (.text "format", .text "dc+sd-jwt")]])]

/-- Both are accepted, and the document answers the query: its id is available, and the query is disclosed. -/
theorem untyped_document_answers :
    ∃ (r : Request) (wallet : Wallet) (q : CredentialQuery) (d : Document),
      Request.ofValue untypedRequestData = .ok r ∧ Wallet.ofValue untypedWalletData = .ok wallet ∧
      r.catalogue.entries = [q] ∧ wallet = [d] ∧ q.format = sdJwtFormat ∧ d.answers q = .ok true ∧ d.vct = .null ∧
      (∀ t, d.vct ≠ .text t) ∧ (∀ t, .text t ∉ q.listedTypes) ∧
      r.catalogue.available wallet = .ok ["a"] ∧
      ∃ decision, r.decide wallet [] = .ok decision ∧ decision.resolution.isSatisfied = true := by
  refine ⟨⟨⟨[{ id := "a", format := "dc+sd-jwt", metadata := [(.text "vct_values", .list [.null])] }], by decide⟩,
    none, rfl⟩, [{ id := "d1", format := "dc+sd-jwt" }], _, _, rfl, rfl, rfl, rfl, rfl, rfl, rfl, ?_, ?_, rfl, _, rfl, rfl⟩
  · simp
  · simp [CredentialQuery.listedTypes, Value.items, Fields.get, Fields.field?]

end Disclosure
