import Disclosure.Proofs.Growth
import Disclosure.Proofs.TypedAnswers

/-!
# Disclosure.Proofs.ExactAnswers — which ids a wallet answers, and for which query it is refused

Every query is held against every document, in order, and the first query that cannot be held against some document
stops everything.  Most such queries do not say which type they ask for.  The others list a type that stands inside
itself and meet a document whose type does so too: the comparison of the two may have no end, and nothing reports it.

* `Value.among?_eq_none_iff`, `Value.eq_true_iff_of_among?`: when a search through a list has no end, and what it finds
  otherwise.
* `Document.answers_eq_error_iff`: which documents a query cannot be held against.
* `Document.answers_iff_fits`: which documents answer a query that can be held against them.
* `answeredIds_eq_error_iff`, `answeredIds_eq_filter`, `answeredIds_eq_of_shapes`: all queries and all documents.
* `availability_exact`: the ids that are available from a wallet, and the query for which it is refused.
* `endless_comparison_hides`: a comparison without end hides the query that does not say which type it asks for.
-/

namespace Disclosure

/-! ### Searches that come to an end -/

namespace Value

variable {v : Value} {items : List Value}

/-- A search has no end exactly when all items before one that cannot be compared differ from the value. -/
theorem among?_eq_none_iff : v.among? items = none ↔
    ∃ i w, FirstWithout (fun x : Value => x.same? v = some false) items i w ∧ w.same? v = none := by
  induction items with
  | nil => simp [among?, FirstWithout]
  | cons w rest ih =>
    rw [exists_firstWithout_cons_iff, ← ih, among?]
    cases hw : w.same? v with
    | none => simp
    | some b => cases b <;> simp

/-- A search that comes to an end finds the value exactly when some item says the same. -/
theorem eq_true_iff_of_among? {b : Bool} (h : v.among? items = some b) :
    b = true ↔ ∃ w ∈ items, w.same? v = some true := by
  induction items with
  | nil =>
    cases h
    simp
  | cons w rest ih =>
    rw [among?] at h
    obtain ⟨c, hc, hrest⟩ := Option.bind_eq_some_iff.1 h
    cases c with
    | true =>
      obtain rfl : true = b := by simpa using hrest
      simp [hc]
    | false => simp [hc, ih (by simpa using hrest)]

/-- Every value can be compared with a scalar. -/
theorem same?_eq_some_of_scalar {s : Scalar} (h : v.untie = .scalar s) (w : Value) : ∃ b, w.same? v = some b := by
  unfold same?
  split
  · rw [deepestComparison, sameWithin, h]
    split <;> simp_all
  · exact ⟨_, rfl⟩

end Value

/-! ### Queries that are refused -/

namespace CredentialQuery

/-- The query does not say which type it asks for, and this is how that is reported. -/
inductive LacksType (q : CredentialQuery) : RequestError → Prop
  | doctype (hformat : q.format = mobileDocumentFormat)
      (h : ∀ t, q.metadata.get "doctype_value" = .text t → t = []) : q.LacksType (.doctypeMissing q.id)
  | vctValues (hformat : q.format = sdJwtFormat)
      (h : ∀ items, (q.metadata.get "vct_values").untie = .list items → items = []) :
      q.LacksType (.vctValuesMissing q.id)

/-- The query does not say which type it asks for, and the wallet has a document of its format. -/
def Typeless (q : CredentialQuery) (wallet : Wallet) : Prop :=
  (∃ e, q.LacksType e) ∧ ∃ d ∈ wallet, d.format = q.format

/-- The type of the document differs from the listed ones up to one with which its comparison has no end. -/
def Endless (q : CredentialQuery) (d : Document) : Prop :=
  ∃ i w, FirstWithout (fun x : Value => x.same? d.vct = some false) q.listedTypes i w ∧ w.same? d.vct = none

/-- Some document of the wallet is of the format of the query, but the query cannot be held against it. -/
inductive Refused (q : CredentialQuery) (wallet : Wallet) : RequestError → Prop
  | lacksType {e : RequestError} {d : Document} (hd : d ∈ wallet) (hformat : d.format = q.format)
      (h : q.LacksType e) : q.Refused wallet e
  | endless {d : Document} (hd : d ∈ wallet) (hformat : d.format = q.format) (hq : q.format = sdJwtFormat)
      (h : q.Endless d) : q.Refused wallet (.endlessComparison q.id)

/-- The document has the format of the query and, where the format has types, a type that the query asks for. -/
structure Fits (q : CredentialQuery) (d : Document) : Prop where
  format : d.format = q.format
  doctype : q.format = mobileDocumentFormat →
    ∃ t, d.doctype = .text t ∧ q.metadata.get "doctype_value" = .text t
  vct : q.format = sdJwtFormat → ∃ w ∈ q.listedTypes, w.same? d.vct = some true

variable {q : CredentialQuery} {d : Document} {wallet : Wallet} {e e' : RequestError}

theorem sdJwtFormat_ne_mobile (h : q.format = sdJwtFormat) : q.format ≠ mobileDocumentFormat := by
  rw [h]
  decide

theorem doctype?_eq_none_iff :
    q.doctype? = none ↔ ∀ t, q.metadata.get "doctype_value" = .text t → t = [] := by
  rw [Option.eq_none_iff_forall_ne_some]
  refine forall_congr' (fun t => ?_)
  rw [Ne, doctype?, Value.nonemptyText?_eq_some_iff, not_and_not_right]

theorem listedTypes_eq_nil_iff :
    q.listedTypes = [] ↔ ∀ items, (q.metadata.get "vct_values").untie = .list items → items = [] := by
  unfold listedTypes Value.items
  split
  · rename_i items h
    simp [h]
  · rename_i h
    exact iff_of_true rfl (fun items hitems => absurd hitems (h items))

theorem vctValues?_eq_none_iff :
    q.vctValues? = none ↔ ∀ items, (q.metadata.get "vct_values").untie = .list items → items = [] := by
  rw [← listedTypes_eq_nil_iff, Option.eq_none_iff_forall_ne_some]
  constructor
  · intro h
    by_contra hne
    exact h _ (vctValues?_eq_some_iff.2 ⟨rfl, hne⟩)
  · rintro hnil accepted haccepted
    obtain ⟨rfl, hne⟩ := vctValues?_eq_some_iff.1 haccepted
    exact hne hnil

theorem lacksType_mobile_iff (hq : q.format = mobileDocumentFormat) :
    q.LacksType e ↔ q.doctype? = none ∧ e = .doctypeMissing q.id := by
  constructor
  · rintro (⟨-, h⟩ | ⟨hformat, -⟩)
    · exact ⟨doctype?_eq_none_iff.2 h, rfl⟩
    · exact absurd hq (sdJwtFormat_ne_mobile hformat)
  · rintro ⟨h, rfl⟩
    exact .doctype hq (doctype?_eq_none_iff.1 h)

theorem lacksType_sdJwt_iff (hq : q.format = sdJwtFormat) :
    q.LacksType e ↔ q.vctValues? = none ∧ e = .vctValuesMissing q.id := by
  constructor
  · rintro (⟨hformat, -⟩ | ⟨-, h⟩)
    · exact absurd hformat (sdJwtFormat_ne_mobile hq)
    · exact ⟨vctValues?_eq_none_iff.2 h, rfl⟩
  · rintro ⟨h, rfl⟩
    exact .vctValues hq (vctValues?_eq_none_iff.1 h)

theorem not_lacksType (hmobile : q.format ≠ mobileDocumentFormat) (hsdJwt : q.format ≠ sdJwtFormat) :
    ¬ q.LacksType e := by
  rintro (⟨hformat, -⟩ | ⟨hformat, -⟩)
  · exact hmobile hformat
  · exact hsdJwt hformat

theorem not_endless_of_lacksType (h : q.LacksType e) (hq : q.format = sdJwtFormat) : ¬ q.Endless d := by
  have hnil : q.listedTypes = [] :=
    listedTypes_eq_nil_iff.2 (vctValues?_eq_none_iff.1 ((lacksType_sdJwt_iff hq).1 h).1)
  rintro ⟨i, w, ⟨hw, -, -⟩, -⟩
  simp [hnil] at hw

theorem LacksType.unique (h : q.LacksType e) (h' : q.LacksType e') : e = e' := by
  cases h with
  | doctype hmobile _ => rw [((lacksType_mobile_iff hmobile).1 h').2]
  | vctValues hsdJwt _ => rw [((lacksType_sdJwt_iff hsdJwt).1 h').2]

/-- A query is refused for one reason only, however many documents it meets. -/
theorem Refused.unique (h : q.Refused wallet e) (h' : q.Refused wallet e') : e = e' := by
  cases h with
  | lacksType _ _ h =>
    cases h' with
    | lacksType _ _ h' => exact h.unique h'
    | endless _ _ hq h' => exact absurd h' (not_endless_of_lacksType h hq)
  | endless _ _ hq h =>
    cases h' with
    | lacksType _ _ h' => exact absurd h (not_endless_of_lacksType h' hq)
    | endless => rfl

/-- The cause is reported exactly when the query does not say which type it asks for. -/
theorem Refused.isReported_iff (h : q.Refused wallet e) : e.isReported = true ↔ q.LacksType e := by
  cases h with
  | lacksType _ _ h =>
    refine iff_of_true ?_ h
    cases h <;> rfl
  | endless => exact iff_of_false Bool.false_ne_true nofun

/-! ### Documents that fit -/

theorem fits_mobile_iff (hq : q.format = mobileDocumentFormat) :
    q.Fits d ↔ d.format = q.format ∧ ∃ t, d.doctype = .text t ∧ q.metadata.get "doctype_value" = .text t := by
  have hother : q.format ≠ sdJwtFormat := fun h => sdJwtFormat_ne_mobile h hq
  exact ⟨fun h => ⟨h.format, h.doctype hq⟩, fun ⟨hformat, h⟩ => ⟨hformat, fun _ => h, fun hs => absurd hs hother⟩⟩

theorem fits_sdJwt_iff (hq : q.format = sdJwtFormat) :
    q.Fits d ↔ d.format = q.format ∧ ∃ w ∈ q.listedTypes, w.same? d.vct = some true := by
  have hother : q.format ≠ mobileDocumentFormat := sdJwtFormat_ne_mobile hq
  exact ⟨fun h => ⟨h.format, h.vct hq⟩, fun ⟨hformat, h⟩ => ⟨hformat, fun hm => absurd hm hother, fun _ => h⟩⟩

theorem fits_other_iff (hmobile : q.format ≠ mobileDocumentFormat) (hsdJwt : q.format ≠ sdJwtFormat) :
    q.Fits d ↔ d.format = q.format :=
  ⟨Fits.format, fun h => ⟨h, fun hm => absurd hm hmobile, fun hs => absurd hs hsdJwt⟩⟩

end CredentialQuery

open CredentialQuery

/-! ### One document -/

section Answers

variable {q : CredentialQuery} {d : Document} {wallet : Wallet} {queries : List CredentialQuery} {e : RequestError}

/-- A query cannot be held against a document of its format when it does not say which type it asks for, or when a
comparison has no end. -/
theorem Document.answers_eq_error_iff : d.answers q = .error e ↔
    d.format = q.format ∧
      (q.LacksType e ∨ q.format = sdJwtFormat ∧ e = .endlessComparison q.id ∧ q.Endless d) := by
  by_cases hformat : d.format = q.format
  swap
  · simp [answers, hformat]
  by_cases hmobile : q.format = mobileDocumentFormat
  · have hsdJwt : q.format ≠ sdJwtFormat := fun h => sdJwtFormat_ne_mobile h hmobile
    rw [answers, if_neg (not_not.2 hformat), if_pos hmobile, lacksType_mobile_iff hmobile]
    cases q.doctype? <;> simp [hformat, hsdJwt, eq_comm]
  by_cases hsdJwt : q.format = sdJwtFormat
  · rw [answers, if_neg (not_not.2 hformat), if_neg hmobile, if_pos hsdJwt, lacksType_sdJwt_iff hsdJwt, Endless,
      ← Value.among?_eq_none_iff]
    cases hv : q.vctValues? with
    | none =>
      have hnil : q.listedTypes = [] := listedTypes_eq_nil_iff.2 (vctValues?_eq_none_iff.1 hv)
      simp [hformat, hsdJwt, hnil, Value.among?, eq_comm]
    | some accepted =>
      obtain ⟨rfl, -⟩ := vctValues?_eq_some_iff.1 hv
      dsimp only
      cases d.vct.among? q.listedTypes <;> simp [hformat, hsdJwt, eq_comm]
  · simp [answers, hformat, hmobile, hsdJwt, not_lacksType hmobile hsdJwt]

/-- A query that can be held against a document is answered by it exactly when the document fits. -/
theorem Document.answers_iff_fits {hit : Bool} (h : d.answers q = .ok hit) : d.answers q = .ok true ↔ q.Fits d := by
  have hok : ∀ e, d.answers q ≠ .error e := by simp [h]
  simp only [Ne, answers_eq_error_iff, not_and, not_or] at hok
  by_cases hmobile : q.format = mobileDocumentFormat
  · rw [answers_mobile_iff hmobile, fits_mobile_iff hmobile]
    refine and_congr_right (fun hformat => exists_congr (fun t => and_iff_right_of_imp ?_))
    rintro ⟨-, ht⟩ rfl
    -- a query that names the empty text lacks its type
    refine (hok _ hformat).1 (.doctype hmobile (fun u hu => ?_))
    rw [ht] at hu
    cases hu
    rfl
  by_cases hsdJwt : q.format = sdJwtFormat
  · rw [answers_sdJwt_iff_among? hsdJwt, fits_sdJwt_iff hsdJwt]
    refine and_congr_right (fun hformat => ⟨fun h => Value.exists_of_among? h.2, ?_⟩)
    rintro ⟨w, hw, hsame⟩
    refine ⟨List.ne_nil_of_mem hw, ?_⟩
    cases hamong : d.vct.among? q.listedTypes with
    | none => exact absurd (Value.among?_eq_none_iff.1 hamong) ((hok _ hformat).2 hsdJwt rfl)
    | some b => rw [(Value.eq_true_iff_of_among? hamong).2 ⟨w, hw, hsame⟩]
  · rw [fits_other_iff hmobile hsdJwt]
    simp [answers, hmobile, hsdJwt]

/-! ### All documents -/

theorem answers_cons_eq_error_iff : q.answers (d :: wallet) = .error e ↔
    d.answers q = .error e ∨ ∃ hit, d.answers q = .ok hit ∧ q.answers wallet = .error e := by
  simp only [CredentialQuery.answers, bind_eq_error_iff, pure, Except.pure, reduceCtorEq, and_false, exists_false,
    or_false]

theorem CredentialQuery.refused_iff : q.Refused wallet e ↔ ∃ d ∈ wallet, d.answers q = .error e := by
  simp only [Document.answers_eq_error_iff]
  constructor
  · rintro (⟨hd, hformat, h⟩ | ⟨hd, hformat, hq, h⟩)
    · exact ⟨_, hd, hformat, Or.inl h⟩
    · exact ⟨_, hd, hformat, Or.inr ⟨hq, rfl, h⟩⟩
  · rintro ⟨d, hd, hformat, h | ⟨hq, rfl, h⟩⟩
    · exact .lacksType hd hformat h
    · exact .endless hd hformat hq h

/-- A query cannot be held against a wallet exactly when it is refused, whichever document comes first. -/
theorem CredentialQuery.answers_eq_error_iff : q.answers wallet = .error e ↔ q.Refused wallet e := by
  have hfailing : ∀ {e'}, q.answers wallet = .error e' → q.Refused wallet e' := by
    intro e' he'
    rw [refused_iff]
    induction wallet with
    | nil => cases he'
    | cons d rest ih =>
      rcases answers_cons_eq_error_iff.1 he' with hd | ⟨-, -, hrest⟩
      · exact ⟨d, by simp, hd⟩
      · obtain ⟨d', hd', he⟩ := ih hrest
        exact ⟨d', by simp [hd'], he⟩
  refine ⟨hfailing, fun h => ?_⟩
  obtain ⟨d, hd, he⟩ := refused_iff.1 h
  cases hanswers : q.answers wallet with
  | ok found =>
    obtain ⟨hit, hhit⟩ := exists_answers_iff.1 ⟨found, hanswers⟩ d hd
    rw [he] at hhit
    cases hhit
  | error e' => rw [(hfailing hanswers).unique h]

theorem CredentialQuery.exists_answers_iff_not_refused :
    (∃ found, q.answers wallet = .ok found) ↔ ∀ e, ¬ q.Refused wallet e := by
  simp only [← answers_eq_error_iff]
  cases q.answers wallet <;> simp

/-! ### All queries -/

/-- The ids cannot be found exactly when some query is refused, and then for the first one. -/
theorem answeredIds_eq_error_iff : answeredIds wallet queries = .error e ↔
    ∃ i q, FirstWithout (fun p : CredentialQuery => ∀ e', ¬ p.Refused wallet e') queries i q ∧ q.Refused wallet e := by
  induction queries with
  | nil => simp [answeredIds, FirstWithout]
  | cons q rest ih =>
    have hrefused : (¬ ∀ e', ¬ q.Refused wallet e') ∧ q.Refused wallet e ↔ q.Refused wallet e :=
      and_iff_right_of_imp (fun h hnone => hnone e h)
    rw [exists_firstWithout_cons_iff, ← ih, hrefused, answeredIds_cons_eq_error_iff, answers_eq_error_iff,
      exists_and_right, exists_answers_iff_not_refused]

/-- The ids that are found are those of the queries that some document answers, in the order of the queries. -/
theorem answeredIds_eq_filter {ids : List String} (h : answeredIds wallet queries = .ok ids) :
    ids = (queries.filter (fun q => wallet.any q.admits)).map CredentialQuery.id := by
  induction queries generalizing ids with
  | nil =>
    cases h
    rfl
  | cons q rest ih =>
    obtain ⟨found, later, hfound, hlater, rfl⟩ := answeredIds_cons_eq_ok_iff.1 h
    have hany : wallet.any q.admits = !found.isEmpty := by
      rw [answers_eq_filter hfound, Bool.eq_iff_iff, Bool.not_eq_true', List.isEmpty_eq_false_iff_exists_mem]
      simp only [List.any_eq_true, List.mem_filter]
    rw [List.filter_cons, hany, ih hlater]
    cases found.isEmpty <;> rfl

/-- What a query is held against: all of a document but its id. -/
def Document.shape (d : Document) : Text × Value × Value := (d.format, d.doctype, d.vct)

theorem Document.answers_eq_of_shape {d' : Document} (h : d'.shape = d.shape) : d'.answers q = d.answers q := by
  simp only [shape, Prod.mk.injEq] at h
  obtain ⟨hformat, hdoctype, hvct⟩ := h
  simp only [answers, hformat, hdoctype, hvct]

theorem exists_answer_of_shapes {other : Wallet} {x : Except RequestError Bool}
    (hsub : ∀ s ∈ wallet.map Document.shape, s ∈ other.map Document.shape) (h : ∃ d ∈ wallet, d.answers q = x) :
    ∃ d ∈ other, d.answers q = x := by
  obtain ⟨d, hd, rfl⟩ := h
  obtain ⟨d', hd', hshape⟩ := List.mem_map.1 (hsub _ (List.mem_map_of_mem hd))
  exact ⟨d', hd', Document.answers_eq_of_shape hshape⟩

/-- Neither the order of the documents counts, nor how often they are repeated, nor their ids. -/
theorem answeredIds_eq_of_shapes {other : Wallet}
    (h : ∀ s, s ∈ other.map Document.shape ↔ s ∈ wallet.map Document.shape) :
    answeredIds other queries = answeredIds wallet queries := by
  have hsome : ∀ (q : CredentialQuery) x, (∃ d ∈ other, d.answers q = x) ↔ ∃ d ∈ wallet, d.answers q = x :=
    fun q x => ⟨exists_answer_of_shapes (fun s => (h s).1), exists_answer_of_shapes (fun s => (h s).2)⟩
  have herror : ∀ e, answeredIds other queries = .error e ↔ answeredIds wallet queries = .error e := by
    intro e
    simp only [answeredIds_eq_error_iff, refused_iff, hsome]
  have hany : ∀ q : CredentialQuery, other.any q.admits = wallet.any q.admits := by
    intro q
    rw [Bool.eq_iff_iff]
    simp only [List.any_eq_true, admits_eq_true_iff, hsome]
  cases hwallet : answeredIds wallet queries with
  | error e => exact (herror e).2 hwallet
  | ok ids =>
    cases hother : answeredIds other queries with
    | error e =>
      rw [(herror e).1 hother] at hwallet
      cases hwallet
    | ok ids' =>
      rw [answeredIds_eq_filter hother, answeredIds_eq_filter hwallet]
      simp only [hany]

end Answers

/-! ### The ids that are available -/

namespace Catalogue

variable {c : Catalogue} {wallet : Wallet} {e : RequestError}

/-- Every comparison of a listed type with the type of a document that is called for comes to an end. -/
def Comparable (c : Catalogue) (wallet : Wallet) : Prop :=
  ∀ q ∈ c.entries, q.format = sdJwtFormat → ∀ d ∈ wallet, d.format = q.format →
    ∀ w ∈ q.listedTypes, ∃ b, w.same? d.vct = some b

/-- Comparisons come to an end when the document has a scalar as its type, or none, and when neither of the two values
stands inside itself. -/
theorem comparable_of_plain (h : ∀ d ∈ wallet, (∃ s, d.vct.untie = .scalar s) ∨
    d.vct.isTied = false ∧ ∀ q ∈ c.entries, ∀ w ∈ q.listedTypes, w.isTied = false) : c.Comparable wallet := by
  intro q hq _ d hd _ w hw
  rcases h d hd with ⟨s, hs⟩ | ⟨hd, hlisted⟩
  · exact Value.same?_eq_some_of_scalar hs w
  · exact ⟨_, Value.same?_eq_some (hlisted q hq w hw) hd⟩

theorem nodup_available {answered : List String} (h : c.available wallet = .ok answered) : answered.Nodup := by
  rw [answeredIds_eq_filter h]
  exact c.nodup_ids.sublist (List.filter_sublist.map CredentialQuery.id)

/-- Exactly the queries that some document fits are answered. -/
theorem mem_available_iff_fits {answered : List String} (h : c.available wallet = .ok answered) {id : String} :
    id ∈ answered ↔ ∃ q ∈ c.entries, q.id = id ∧ ∃ d ∈ wallet, q.Fits d := by
  rw [mem_answeredIds_iff h]
  refine exists_congr (fun q => and_congr_right (fun hq => and_congr_right (fun _ => ?_)))
  refine exists_congr (fun d => and_congr_right (fun hd => ?_))
  obtain ⟨hit, hhit⟩ := exists_answeredIds_iff.1 ⟨answered, h⟩ q hq d hd
  exact Document.answers_iff_fits hhit

theorem Comparable.refused_iff (h : c.Comparable wallet) {q : CredentialQuery} (hq : q ∈ c.entries) :
    q.Refused wallet e ↔ q.LacksType e ∧ ∃ d ∈ wallet, d.format = q.format := by
  constructor
  · rintro (⟨hd, hformat, hlacks⟩ | ⟨hd, hformat, hsdJwt, i, w, ⟨hw, -, -⟩, hnone⟩)
    · exact ⟨hlacks, _, hd, hformat⟩
    · obtain ⟨b, hb⟩ := h q hq hsdJwt _ hd hformat w (List.mem_of_getElem? hw)
      rw [hnone] at hb
      cases hb
  · rintro ⟨hlacks, d, hd, hformat⟩
    exact .lacksType hd hformat hlacks

/-- When comparisons come to an end, a wallet is refused for the first query that does not say which type it asks for
while the wallet has a document of its format. -/
theorem Comparable.available_eq_error_iff (h : c.Comparable wallet) : c.available wallet = .error e ↔ ∃ i q,
    FirstWithout (fun p : CredentialQuery => ¬ p.Typeless wallet) c.entries i q ∧ q.LacksType e := by
  have hrefused : ∀ q ∈ c.entries, (∀ e, ¬ q.Refused wallet e) ↔ ¬ q.Typeless wallet := by
    intro q hq
    simp only [h.refused_iff hq, Typeless, ← exists_and_right, not_exists]
  rw [available, answeredIds_eq_error_iff]
  refine exists_congr (fun i => exists_congr (fun q => ?_))
  rw [firstWithout_congr hrefused]
  refine and_congr_right (fun hfirst => ?_)
  rw [h.refused_iff (List.mem_of_getElem? hfirst.1)]
  exact and_iff_left_of_imp (fun _ => (not_not.1 hfirst.2.1).2)

end Catalogue

/-- **Which ids are available from a wallet, and when there is no telling.**  The ids cannot be found exactly when some
query is refused, and the cause is that of the first one; it is reported when the query does not say which type it asks
for, and not reported when a comparison has no end.  Otherwise exactly the queries that some document fits are answered,
each once.  Where all comparisons come to an end, as they do for all types of documents that are texts or missing, the
cause is that of the first query that does not say which type it asks for while the wallet has a document of its format.
The order of the documents does not count, nor how often they are repeated, nor their ids. -/
theorem availability_exact (c : Catalogue) (wallet : Wallet) :
    (∀ e, c.available wallet = .error e ↔ ∃ i q,
      FirstWithout (fun p : CredentialQuery => ∀ e', ¬ p.Refused wallet e') c.entries i q ∧ q.Refused wallet e) ∧
    (∀ (q : CredentialQuery) (e : RequestError), q.Refused wallet e → (e.isReported = true ↔ q.LacksType e)) ∧
    ((∃ e, c.available wallet = .error e) ∨
      ∃ answered, c.available wallet = .ok answered ∧ answered.Nodup ∧
        ∀ id, id ∈ answered ↔ ∃ q ∈ c.entries, q.id = id ∧ ∃ d ∈ wallet, q.Fits d) ∧
    (c.Comparable wallet →
      ((∃ e, c.available wallet = .error e) ↔
        ∃ q ∈ c.entries, q.Typeless wallet) ∧
      ∀ e, c.available wallet = .error e ↔ ∃ i q,
        FirstWithout (fun p : CredentialQuery => ¬ p.Typeless wallet) c.entries i q ∧ q.LacksType e) ∧
    ((∀ d ∈ wallet, (∃ s, d.vct.untie = .scalar s) ∨
        d.vct.isTied = false ∧ ∀ q ∈ c.entries, ∀ w ∈ q.listedTypes, w.isTied = false) → c.Comparable wallet) ∧
    (∀ other : Wallet, (∀ s, s ∈ other.map Document.shape ↔ s ∈ wallet.map Document.shape) →
      c.available other = c.available wallet) := by
  refine ⟨fun e => answeredIds_eq_error_iff, fun _ _ h => h.isReported_iff, ?_, ?_, Catalogue.comparable_of_plain,
    fun other h => answeredIds_eq_of_shapes h⟩
  · cases h : c.available wallet with
    | error e => exact Or.inl ⟨e, rfl⟩
    | ok answered =>
      exact Or.inr ⟨answered, rfl, Catalogue.nodup_available h, fun id => Catalogue.mem_available_iff_fits h⟩
  · intro hcomparable
    have hfirst : ∀ e, c.available wallet = .error e ↔ ∃ i q,
        FirstWithout (fun p : CredentialQuery => ¬ p.Typeless wallet) c.entries i q ∧ q.LacksType e :=
      fun e => hcomparable.available_eq_error_iff
    refine ⟨?_, hfirst⟩
    constructor
    · rintro ⟨e, he⟩
      obtain ⟨i, q, h, -⟩ := (hfirst e).1 he
      exact ⟨q, List.mem_of_getElem? h.1, not_not.1 h.2.1⟩
    · rintro ⟨q, hq, htypeless⟩
      have hsome : ∃ p ∈ c.entries, ¬ ¬ p.Typeless wallet := ⟨q, hq, not_not.2 htypeless⟩
      obtain ⟨i, p, h⟩ := exists_firstWithout_iff.2 hsome
      obtain ⟨⟨e, he⟩, -⟩ := not_not.1 h.2.1
      exact ⟨e, (hfirst e).2 ⟨i, p, h, he⟩⟩

/-- A request for an SD-JWT credential and, without a type, for a mobile document. -/
def typelessCatalogue : Catalogue :=
  ⟨[{ id := "a", format := "dc+sd-jwt", metadata := [(.text "vct_values", .list [.text "urn:eudi:pid:1"])] },
    { id := "b", format := "mso_mdoc" }], by decide⟩

/-- The one credential is answered, however often the wallet holds it and under whatever id.  With a mobile document the
wallet is refused for the second query. -/
theorem availability_exact_typeless :
    let d : Document := { id := "d1", format := "dc+sd-jwt", vct := .text "urn:eudi:pid:1" }
    let twice : Wallet := [{ d with id := "d2" }, d]
    let both : Wallet := [{ id := "d3", format := "mso_mdoc", doctype := .text "org.iso.18013.5.1.mDL" }, d]
    typelessCatalogue.available [d] = .ok ["a"] ∧ typelessCatalogue.available twice = .ok ["a"] ∧
      typelessCatalogue.Comparable both ∧ typelessCatalogue.available both = .error (.doctypeMissing "b") := by
  intro d twice both
  obtain ⟨-, -, -, -, -, hshapes⟩ := availability_exact typelessCatalogue [d]
  obtain ⟨-, -, -, hrefused, hplain, -⟩ := availability_exact typelessCatalogue both
  have hone : typelessCatalogue.available [d] = .ok ["a"] := rfl
  have hsame : ∀ s, s ∈ twice.map Document.shape ↔ s ∈ [d].map Document.shape := by
    simp [twice, Document.shape]
  have hcomparable : typelessCatalogue.Comparable both := by
    refine hplain (fun x hx => Or.inl ?_)
    simp only [both, List.mem_cons, List.not_mem_nil, or_false] at hx
    rcases hx with rfl | rfl
    · exact ⟨.null, rfl⟩
    · exact ⟨.text "urn:eudi:pid:1", rfl⟩
  have hlacks : CredentialQuery.LacksType { id := "b", format := "mso_mdoc" } (.doctypeMissing "b") :=
    .doctype rfl nofun
  refine ⟨hone, (hshapes twice hsame).trans hone, hcomparable, ((hrefused hcomparable).2 _).2 ⟨1, _, ?_, hlacks⟩⟩
  -- the query before it lists a type
  refine ⟨rfl, not_not.2 ⟨⟨_, hlacks⟩, _, List.mem_cons_self, rfl⟩, ?_⟩
  rintro j hj q hq ⟨⟨e, he⟩, -⟩
  obtain rfl : j = 0 := by omega
  obtain rfl := Option.some.inj hq
  cases he with
  | doctype hformat _ => exact absurd hformat (by decide)
  | vctValues _ h => exact absurd (h _ rfl) (by simp)

/-! ### A comparison without end -/

/-- A list whose only item is the list itself. -/
def endlessList : Value := .knot 0 (.list [.again 0])

theorem sameWithin_endlessList (depth : Nat) : Value.sameWithin depth endlessList endlessList = none := by
  induction depth with
  | zero => rfl
  | succ depth ih =>
    have huntie : endlessList.untie = .list [endlessList] := rfl
    simp [Value.sameWithin, huntie, Value.agree, ih]

/-- A request for an SD-JWT credential whose type stands inside itself, and for a mobile document without a type. -/
def endlessRequestData : Value :=
  .object [(.text "credentials", .list
    [.object [(.text "id", .text "a"), (.text "format", .text "dc+sd-jwt"),
      (.text "meta", .object [(.text "vct_values", .list [endlessList])])],
     .object [(.text "id", .text "b"), (.text "format", .text "mso_mdoc")]])]

/-- The queries of that request. -/
def endlessCatalogue : Catalogue :=
  ⟨[{ id := "a", format := "dc+sd-jwt", metadata := [(.text "vct_values", .list [endlessList])] },
    { id := "b", format := "mso_mdoc" }], by decide⟩

/-- A wallet with an SD-JWT credential whose type stands inside itself, and a mobile document. -/
def endlessWalletData : Value :=
  .object [(.text "documents", .list
    [.object [(.text "id", .text "d1"), (.text "format", .text "dc+sd-jwt"), (.text "vct", endlessList)],
     .object [(.text "id", .text "d2"), (.text "format", .text "mso_mdoc")]])]

/-- The documents of that wallet. -/
def endlessWallet : Wallet :=
  [{ id := "d1", format := "dc+sd-jwt", vct := endlessList }, { id := "d2", format := "mso_mdoc" }]

theorem available_endlessWallet : endlessCatalogue.available endlessWallet = .error (.endlessComparison "a") := by
  have hnone : endlessList.same? endlessList = none := sameWithin_endlessList _
  let a : CredentialQuery :=
    { id := "a", format := "dc+sd-jwt", metadata := [(.text "vct_values", .list [endlessList])] }
  have hfirst : FirstWithout (fun x : Value => x.same? endlessList = some false) a.listedTypes 0 endlessList :=
    firstWithout_cons_zero.2 ⟨rfl, by simp [hnone]⟩
  have hrefused : a.Refused endlessWallet (.endlessComparison "a") :=
    .endless List.mem_cons_self rfl rfl ⟨0, endlessList, hfirst, hnone⟩
  exact answeredIds_eq_error_iff.2 ⟨0, a, firstWithout_cons_zero.2 ⟨rfl, fun h => h _ hrefused⟩, hrefused⟩

/-- Both are accepted.  The second query does not say which type it asks for, and the wallet has a document of its
format, but the comparison for the first query has no end, and nothing is reported. -/
theorem endless_comparison_hides :
    Request.ofValue endlessRequestData = .ok ⟨endlessCatalogue, none, rfl⟩ ∧
      Wallet.ofValue endlessWalletData = .ok endlessWallet ∧
      (∃ q ∈ endlessCatalogue.entries, q.LacksType (.doctypeMissing "b") ∧ q.Typeless endlessWallet) ∧
      endlessCatalogue.available endlessWallet = .error (.endlessComparison "a") ∧
      (RequestError.endlessComparison "a").isReported = false := by
  have hlacks : CredentialQuery.LacksType { id := "b", format := "mso_mdoc" } (.doctypeMissing "b") :=
    .doctype rfl nofun
  have hd : ({ id := "d2", format := "mso_mdoc" } : Document) ∈ endlessWallet := by simp [endlessWallet]
  exact ⟨rfl, rfl, ⟨_, List.mem_cons_of_mem _ List.mem_cons_self, hlacks, ⟨_, hlacks⟩, _, hd, rfl⟩,
    available_endlessWallet, rfl⟩

end Disclosure
