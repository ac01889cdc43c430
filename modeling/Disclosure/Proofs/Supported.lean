import Disclosure.Decision
import Disclosure.Proofs.Acceptance
import Disclosure.Proofs.Resolved

/-!
# Disclosure.Proofs.Supported — the decision on a request for a wallet, from the data of both

An id of a request is supported when it counts as available anyway, or when a document of the wallet answers the query
with that id.  The decision selects something exactly when supported ids suffice, and all that it selects is supported
and stands in one entry of the request.

* `Wallet.mem_iff_holds`: the documents of a wallet are those that its data hold.
* `mem_answers_iff`, `mem_answeredIds_iff`: which documents answer a query, and which queries are answered.
* `Request.readFrom_of_mem_entries`: each query of a request was read from the one entry that carries its id.
* `Request.decision_exact`: the decision, from the data of the request and of the wallet.
-/

namespace Disclosure

open Grammar

/-! ### Documents in the data of a wallet -/

namespace Value

/-- A value that says nothing has no items. -/
theorem items_of_isBlank {v : Value} (h : v.isBlank = true) : v.items = [] := by
  cases v with
  | list l => simpa [items, untie, isBlank] using h
  | knot label w =>
    cases w with
    | list l =>
      obtain rfl : l = [] := by simpa [isBlank] using h
      rfl
    | knot inner u =>
      by_cases hinner : inner = label <;> simp [items, untie, replace, hinner]
    | again mark => simp [isBlank] at h
    | _ => rfl
  | _ => rfl

end Value

namespace Wallet

/-- The data of a wallet hold a document: some entry is read as it. -/
def Holds (v : Value) (d : Document) : Prop :=
  ∃ i e, (v.member "documents").items[i]? = some e ∧ Document.ofValue i e = .ok d

theorem mem_iff_holds {v : Value} {wallet : Wallet} (h : ofValue v = .ok wallet) {d : Document} :
    d ∈ wallet ↔ Holds v d := by
  unfold ofValue at h
  split at h
  · rename_i hnull
    cases h
    have hmember : v.member "documents" = .null := by simp [Value.member, hnull]
    have hitems : Value.null.items = [] := rfl
    simp [Holds, hmember, hitems]
  · rename_i fields hobject
    rw [Holds, Value.member_of_untie hobject]
    simp only [ofFields] at h
    split at h
    · rename_i hblank
      cases h
      simp [Value.items_of_isBlank hblank]
    · split at h
      · rename_i items hitems
        rw [Value.items_of_untie hitems, List.mem_iff_getElem?]
        simp only [getElem?_readEach_iff h, Nat.zero_add]
      · cases h
  · cases h

end Wallet

/-! ### Documents that answer -/

section Answers

variable {q : CredentialQuery} {d : Document} {wallet : Wallet}

theorem answers_cons_eq_ok_iff {found : List Document} :
    q.answers (d :: wallet) = .ok found ↔
      ∃ hit later, d.answers q = .ok hit ∧ q.answers wallet = .ok later ∧
        found = if hit then d :: later else later := by
  simp only [CredentialQuery.answers, bind_eq_ok_iff, pure, Except.pure, Except.ok.injEq]
  constructor
  · rintro ⟨hit, hhit, later, hlater, rfl⟩
    exact ⟨hit, later, hhit, hlater, rfl⟩
  · rintro ⟨hit, later, hhit, hlater, rfl⟩
    exact ⟨hit, hhit, later, hlater, rfl⟩

theorem mem_answers_iff {found : List Document} (h : q.answers wallet = .ok found) :
    d ∈ found ↔ d ∈ wallet ∧ d.answers q = .ok true := by
  induction wallet generalizing found with
  | nil =>
    cases h
    simp
  | cons e rest ih =>
    obtain ⟨hit, later, hhit, hlater, rfl⟩ := answers_cons_eq_ok_iff.1 h
    cases hit with
    | true =>
      simp only [if_true, List.mem_cons, ih hlater]
      constructor
      · rintro (rfl | ⟨hd, ha⟩)
        · exact ⟨Or.inl rfl, hhit⟩
        · exact ⟨Or.inr hd, ha⟩
      · rintro ⟨rfl | hd, ha⟩
        · exact Or.inl rfl
        · exact Or.inr ⟨hd, ha⟩
    | false =>
      simp only [Bool.false_eq_true, if_false, List.mem_cons, ih hlater]
      constructor
      · rintro ⟨hd, ha⟩
        exact ⟨Or.inr hd, ha⟩
      · rintro ⟨rfl | hd, ha⟩
        · rw [hhit] at ha
          simp at ha
        · exact ⟨hd, ha⟩

theorem answeredIds_cons_eq_ok_iff {queries : List CredentialQuery} {ids : List String} :
    answeredIds wallet (q :: queries) = .ok ids ↔
      ∃ found later, q.answers wallet = .ok found ∧ answeredIds wallet queries = .ok later ∧
        ids = if found.isEmpty then later else q.id :: later := by
  simp only [answeredIds, bind_eq_ok_iff, pure, Except.pure, Except.ok.injEq]
  constructor
  · rintro ⟨found, hfound, later, hlater, rfl⟩
    exact ⟨found, later, hfound, hlater, rfl⟩
  · rintro ⟨found, later, hfound, hlater, rfl⟩
    exact ⟨found, hfound, later, hlater, rfl⟩

/-- The ids of the answered queries are those for which some document of the wallet answers. -/
theorem mem_answeredIds_iff {queries : List CredentialQuery} {ids : List String}
    (h : answeredIds wallet queries = .ok ids) {id : String} :
    id ∈ ids ↔ ∃ q ∈ queries, q.id = id ∧ ∃ d ∈ wallet, d.answers q = .ok true := by
  induction queries generalizing ids with
  | nil =>
    cases h
    simp
  | cons p rest ih =>
    obtain ⟨found, later, hfound, hlater, rfl⟩ := answeredIds_cons_eq_ok_iff.1 h
    have hp : found.isEmpty = false ↔ ∃ d ∈ wallet, d.answers p = .ok true := by
      rw [List.isEmpty_eq_false_iff_exists_mem]
      exact exists_congr (fun d => mem_answers_iff hfound)
    rw [List.exists_mem_cons_iff, ← hp, ← ih hlater]
    cases found.isEmpty with
    | true => simp
    | false => simp [eq_comm (a := id)]

end Answers

/-! ### Entries of a request -/

namespace Request

variable {v : Value} {r : Request}

/-- The value asks for a list of entries, and this is entry number `i`. -/
def Entry (v : Value) (i : Nat) (e : Value) : Prop :=
  ∃ fields, HasBody v fields ∧ (fields.get "credentials").items[i]? = some e

/-- The query is read from the one entry that carries its id. -/
def ReadFrom (v : Value) (q : CredentialQuery) : Prop :=
  ∃ i e, Entry v i e ∧ e.member "id" = .text q.id ∧
    CredentialQuery.ofValue e ((Place.top "credentials").item i) = .ok q ∧
    ∀ j e', Entry v j e' → e'.member "id" = .text q.id → j = i

theorem readFrom_of_mem_entries (h : ofValue v = .ok r) {q : CredentialQuery} (hq : q ∈ r.catalogue.entries) :
    ReadFrom v q := by
  obtain ⟨fields, hbody, ⟨entries, hentries, -, hf⟩, -⟩ := ofValue_eq_ok_iff.1 h
  have hitems := Value.items_of_untie hentries
  have hnodup := Catalogue.nodup_members_of_forall₂ hf
  obtain ⟨i, hi⟩ := List.getElem?_of_mem hq
  obtain ⟨e, he, hdenotes⟩ := exists_getElem?_of_forall₂ hf hi
  have hid := CredentialQuery.member_id_of_denotes hdenotes
  refine ⟨i, e, ⟨fields, hbody, by rw [hitems, he]⟩, hid, CredentialQuery.ofValue_eq_ok_iff.2 hdenotes, ?_⟩
  rintro j e' ⟨fields', hbody', he'⟩ hid'
  obtain rfl := hasBody_unique hbody' hbody
  rw [hitems] at he'
  have hlt : i < (entries.map (fun e => e.member "id")).length := by
    rw [List.length_map]
    exact (List.getElem?_eq_some_iff.1 he).1
  have hsame : (entries.map (fun e => e.member "id"))[i]? = (entries.map (fun e => e.member "id"))[j]? := by
    rw [List.getElem?_map, List.getElem?_map, he, he', Option.map_some, Option.map_some, hid, hid']
  exact ((List.getElem?_inj hlt hnodup).1 hsame).symm

/-! ### Decisions -/

/-- The id counts as available anyway, or a document in the data of the wallet answers the query with that id. -/
def Supports (r : Request) (walletData : Value) (marked : List String) (id : String) : Prop :=
  id ∈ marked ∨ ∃ q ∈ r.catalogue.entries, q.id = id ∧ ∃ d, Wallet.Holds walletData d ∧ d.answers q = .ok true

theorem decide_eq_ok {wallet : Wallet} {marked answered : List String}
    (h : r.catalogue.available wallet = .ok answered) :
    r.decide wallet marked = .ok ⟨firstSeen (answered ++ marked),
      r.resolve (fun id => (firstSeen (answered ++ marked)).contains id)⟩ := by
  rw [decide, availableIds, h]
  rfl

/-- A decision is made exactly when every query can be held against the wallet. -/
theorem decide_eq_ok_iff {wallet : Wallet} {marked : List String} {d : Decision} :
    r.decide wallet marked = .ok d ↔ ∃ answered, r.catalogue.available wallet = .ok answered ∧
      d = ⟨firstSeen (answered ++ marked), r.resolve (fun id => (firstSeen (answered ++ marked)).contains id)⟩ := by
  simp only [decide, availableIds, bind_eq_ok_iff, pure, Except.pure, Except.ok.injEq]
  constructor
  · rintro ⟨available, ⟨answered, hanswered, rfl⟩, rfl⟩
    exact ⟨answered, hanswered, rfl⟩
  · rintro ⟨answered, hanswered, rfl⟩
    exact ⟨_, ⟨answered, hanswered, rfl⟩, rfl⟩

theorem decide_eq_error_iff {wallet : Wallet} {marked : List String} {e : RequestError} :
    r.decide wallet marked = .error e ↔ r.catalogue.available wallet = .error e := by
  cases ha : r.catalogue.available wallet with
  | error e' =>
    simp [decide, availableIds, ha, bind, Except.bind]
  | ok answered =>
    simp [decide_eq_ok ha]

/-- What a decision selects is available, and stands under its own id as in the catalogue. -/
theorem mem_selection_of_decide {wallet : Wallet} {marked : List String} {d : Decision}
    (h : r.decide wallet marked = .ok d) {id : String} (hid : id ∈ d.resolution.selection.keys) :
    id ∈ d.available ∧ ∃ q, d.resolution.selection.get? id = some q ∧ q ∈ r.catalogue.entries ∧ q.id = id := by
  obtain ⟨answered, -, rfl⟩ := decide_eq_ok_iff.1 h
  obtain ⟨havailable, hq⟩ := exists_get?_of_mem_selection hid
  exact ⟨List.contains_iff_mem.1 havailable, hq⟩

theorem contains_available_iff {walletData : Value} {wallet : Wallet} {marked answered : List String}
    (hw : Wallet.ofValue walletData = .ok wallet) (h : r.catalogue.available wallet = .ok answered) {id : String} :
    (firstSeen (answered ++ marked)).contains id = true ↔ r.Supports walletData marked id := by
  rw [List.contains_iff_mem, mem_firstSeen, List.mem_append, or_comm, mem_answeredIds_iff h, Supports]
  simp only [Wallet.mem_iff_holds hw]

theorem entries_ne_nil (h : ofValue v = .ok r) : r.catalogue.entries ≠ [] := by
  obtain ⟨fields, -, ⟨entries, -, hne, hf⟩, -⟩ := ofValue_eq_ok_iff.1 h
  exact (ne_nil_iff_of_forall₂ hf).1 hne

/-- **A decision follows from the data of the request and of the wallet.**  Something is selected exactly when every
id of a request without grouping is supported, or each required set and some set has an option with supported ids
only.  What is selected is supported, and is the query in the one entry with its id. -/
theorem decision_exact (data walletData : Value) (r : Request) (wallet : Wallet) (marked answered : List String)
    (hr : ofValue data = .ok r) (hw : Wallet.ofValue walletData = .ok wallet)
    (ha : r.catalogue.available wallet = .ok answered) :
    ∃ d, r.decide wallet marked = .ok d ∧
      (d.resolution.isSatisfied = true ↔
        (r.grouping = none ∧ ∀ id ∈ r.catalogue.ids, r.Supports walletData marked id) ∨
        ∃ sets, r.grouping = some sets ∧
          (∀ s ∈ sets, s.required = true → ∃ o ∈ s.options, ∀ id ∈ o.ids, r.Supports walletData marked id) ∧
          ∃ s ∈ sets, ∃ o ∈ s.options, ∀ id ∈ o.ids, r.Supports walletData marked id) ∧
      ∀ id ∈ d.resolution.selection.keys, r.Supports walletData marked id ∧
        ∃ q, d.resolution.selection.get? id = some q ∧ q.id = id ∧ ReadFrom data q := by
  have hsupport : ∀ id, (firstSeen (answered ++ marked)).contains id = true ↔ r.Supports walletData marked id :=
    fun _ => contains_available_iff hw ha
  refine ⟨_, decide_eq_ok ha, ?_, ?_⟩
  · rw [Resolution.isSatisfied_iff, selection_ne_empty_iff (entries_ne_nil hr)]
    simp only [RequiredFulfilled, CredentialSet.Fulfilled, hsupport]
  · intro id hid
    obtain ⟨havailable, q, hq, hmem, hqid⟩ := exists_get?_of_mem_selection hid
    exact ⟨(hsupport id).1 havailable, q, hq, hqid, readFrom_of_mem_entries hr hmem⟩

/-- A wallet with one SD-JWT credential. -/
def pidWalletData : Value :=
  .object [(.text "documents", .list
    [.object [(.text "id", .text "d1"), (.text "format", .text "dc+sd-jwt"), (.text "vct", .text "urn:eudi:pid:1")]])]

/-- Its document. -/
def pidWallet : Wallet := [{ id := "d1", format := "dc+sd-jwt", vct := .text "urn:eudi:pid:1" }]

/-- The wallet answers one query, the other id is marked, and the request is satisfied. -/
theorem decision_carried :
    ofValue carriedData = .ok carriedRequest ∧ Wallet.ofValue pidWalletData = .ok pidWallet ∧
      carriedRequest.catalogue.available pidWallet = .ok ["pid\n"] ∧
      ∃ d, carriedRequest.decide pidWallet ["mdl"] = .ok d ∧ d.resolution.isSatisfied = true ∧
        ∀ id ∈ d.resolution.selection.keys, ∃ q, d.resolution.selection.get? id = some q ∧ ReadFrom carriedData q := by
  have ha : carriedRequest.catalogue.available pidWallet = .ok ["pid\n"] := rfl
  obtain ⟨d, hd, hsatisfied, hselected⟩ :=
    decision_exact carriedData pidWalletData carriedRequest pidWallet ["mdl"] ["pid\n"] rfl rfl ha
  refine ⟨rfl, rfl, ha, d, hd, ?_, ?_⟩
  · rw [hsatisfied]
    refine Or.inr ⟨_, rfl, ?_⟩
    simp [Supports]
  · intro id hid
    obtain ⟨-, q, hq, -, hread⟩ := hselected id hid
    exact ⟨q, hq, hread⟩

end Request

end Disclosure
