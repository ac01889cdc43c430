import Disclosure.Outcome
import Disclosure.Proofs.Supported
import Disclosure.Proofs.Table

/-!
# Disclosure.Proofs.Explained — what the explanation of a request says about a wallet

The lines of an explanation are made one after another, each from the documents that answer its query, up to the first
query that cannot be held against the wallet.

* `CredentialQuery.answers_eq_filter`: the documents that answer a query are a filter of the wallet.
* `queryLines_stop`: the lines stop for the reason for which no ids can be found, or at a type that cannot be shown.
* `queryLines_of_none`: when they do not stop, there is one line for each query.
* `Catalogue.shown_eq`, `Request.explanation_of_stop_none`: a line says that no document answers exactly when the id is
  not answered.
-/

namespace Disclosure

/-! ### Documents that answer -/

namespace CredentialQuery

variable {q : CredentialQuery} {wallet : Wallet}

/-- Whether a document answers the query; a query that cannot be held against it has no answer in it. -/
def admits (q : CredentialQuery) (d : Document) : Bool :=
  match d.answers q with
  | .ok hit => hit
  | .error _ => false

theorem admits_eq_true_iff {d : Document} : q.admits d = true ↔ d.answers q = .ok true := by
  unfold admits
  cases d.answers q <;> simp

theorem answers_eq_filter {found : List Document} (h : q.answers wallet = .ok found) :
    found = wallet.filter q.admits := by
  induction wallet generalizing found with
  | nil =>
    cases h
    rfl
  | cons d rest ih =>
    obtain ⟨hit, later, hhit, hlater, rfl⟩ := answers_cons_eq_ok_iff.1 h
    have hd : q.admits d = hit := by rw [admits, hhit]
    rw [List.filter_cons, hd, ih hlater]

end CredentialQuery

/-- An id of the catalogue is answered exactly when some document answers the query with that id. -/
theorem Catalogue.mem_available_iff {c : Catalogue} {wallet : Wallet} {answered : List String}
    (h : c.available wallet = .ok answered) {q : CredentialQuery} (hq : q ∈ c.entries) :
    q.id ∈ answered ↔ wallet.filter q.admits ≠ [] := by
  have hfilter : wallet.filter q.admits ≠ [] ↔ ∃ d ∈ wallet, d.answers q = .ok true := by
    simp [List.filter_eq_nil_iff, CredentialQuery.admits_eq_true_iff]
  rw [mem_answeredIds_iff h, hfilter]
  constructor
  · rintro ⟨p, hp, hid, hd⟩
    rwa [Catalogue.eq_of_id_eq hp hq hid] at hd
  · exact fun hd => ⟨q, hq, rfl, hd⟩

/-! ### The line of a query -/

namespace CredentialQuery

variable {q : CredentialQuery} {documents : Wallet}

/-- The start of the line of a query: its id and its format. -/
def head (q : CredentialQuery) : Line := [.plain ("  " ++ q.id ++ "  " : String), .dim q.format]

/-- The line of a query that is among the answered ones or not: the documents that answer it, in the order of the
wallet, or a note that there is none. -/
def shown (q : CredentialQuery) (documents : Wallet) (answered : List String) : Line :=
  if q.id ∈ answered then
    q.head ++ [.plain "  <- ",
      .green ((Text.ofString ", ").intercalate ((documents.filter q.admits).map Document.text))]
  else q.head ++ [.plain "  ", .yellow "(no matching document)"]

theorem line_eq_ok_iff {line : Line} : q.line (some documents) = .ok line ↔
    ∃ found, q.answers documents = .ok found ∧ found.all Document.isShowable = true ∧
      line = q.head ++ answersShown found := by
  simp only [CredentialQuery.line, bind_eq_ok_iff]
  refine exists_congr (fun found => and_congr_right (fun _ => ?_))
  by_cases hall : found.all Document.isShowable = true
  · simp [hall, head, pure, Except.pure, eq_comm]
  · simp [hall, throw, throwThe, MonadExceptOf.throw]

theorem line_eq_error_iff {e : RequestError} : q.line (some documents) = .error e ↔
    q.answers documents = .error e ∨ ∃ found, q.answers documents = .ok found ∧
      found.all Document.isShowable = false ∧ e = .typeNotShowable q.id := by
  simp only [CredentialQuery.line, bind_eq_error_iff]
  refine or_congr_right (exists_congr (fun found => and_congr_right (fun _ => ?_)))
  by_cases hall : found.all Document.isShowable = true
  · simp [hall, pure, Except.pure]
  · simp [hall, throw, throwThe, MonadExceptOf.throw, eq_comm]

end CredentialQuery

/-! ### The lines of all queries -/

section Lines

variable {documents : Wallet} {q : CredentialQuery} {queries : List CredentialQuery} {e : RequestError}

theorem queryLines_cons_of_error {w : Option Wallet} (h : q.line w = .error e) :
    queryLines w (q :: queries) = ([], some e) := by
  rw [queryLines, h]

theorem queryLines_cons_of_ok {w : Option Wallet} {line : Line} (h : q.line w = .ok line) :
    queryLines w (q :: queries) = (line :: (queryLines w queries).1, (queryLines w queries).2) := by
  rw [queryLines, h]

theorem answeredIds_cons_eq_error_iff : answeredIds documents (q :: queries) = .error e ↔
    q.answers documents = .error e ∨
      ∃ found, q.answers documents = .ok found ∧ answeredIds documents queries = .error e := by
  simp only [answeredIds, bind_eq_error_iff, pure, Except.pure, reduceCtorEq, and_false, exists_false, or_false]

/-- The lines stop for the reason for which no ids can be found, or at a type that cannot be shown. -/
theorem queryLines_stop (h : (queryLines (some documents) queries).2 = some e) :
    answeredIds documents queries = .error e ∨
      ∃ id, e = .typeNotShowable id ∧ ∃ d ∈ documents, d.isShowable = false := by
  induction queries with
  | nil => simp [queryLines] at h
  | cons q rest ih =>
    cases hline : q.line (some documents) with
    | error e' =>
      rw [queryLines_cons_of_error hline] at h
      obtain rfl := Option.some.inj h
      rcases CredentialQuery.line_eq_error_iff.1 hline with hanswers | ⟨found, hfound, hall, rfl⟩
      · exact Or.inl (answeredIds_cons_eq_error_iff.2 (Or.inl hanswers))
      · obtain ⟨d, hd, hhidden⟩ := List.all_eq_false.1 hall
        exact Or.inr ⟨q.id, rfl, d, ((mem_answers_iff hfound).1 hd).1, by simpa using hhidden⟩
    | ok line =>
      rw [queryLines_cons_of_ok hline] at h
      obtain ⟨found, hfound, -, -⟩ := CredentialQuery.line_eq_ok_iff.1 hline
      refine (ih h).imp_left (fun hrest => ?_)
      exact answeredIds_cons_eq_error_iff.2 (Or.inr ⟨found, hfound, hrest⟩)

/-- When every type can be shown, the lines stop whenever no ids can be found. -/
theorem queryLines_stop_of_error (hshow : ∀ d ∈ documents, d.isShowable = true)
    (h : answeredIds documents queries = .error e) : (queryLines (some documents) queries).2 = some e := by
  induction queries with
  | nil => cases h
  | cons q rest ih =>
    rcases answeredIds_cons_eq_error_iff.1 h with hanswers | ⟨found, hfound, hrest⟩
    · rw [queryLines_cons_of_error (CredentialQuery.line_eq_error_iff.2 (Or.inl hanswers))]
    · have hall : found.all Document.isShowable = true :=
        List.all_eq_true.2 (fun d hd => hshow d ((mem_answers_iff hfound).1 hd).1)
      rw [queryLines_cons_of_ok (CredentialQuery.line_eq_ok_iff.2 ⟨found, hfound, hall, rfl⟩)]
      exact ih hrest

/-- When the lines do not stop, there is one for each query. -/
theorem queryLines_of_none (h : (queryLines (some documents) queries).2 = none) :
    (∃ answered, answeredIds documents queries = .ok answered) ∧
      (queryLines (some documents) queries).1
        = queries.map (fun q => q.head ++ answersShown (documents.filter q.admits)) := by
  induction queries with
  | nil => exact ⟨⟨[], rfl⟩, rfl⟩
  | cons q rest ih =>
    cases hline : q.line (some documents) with
    | error e' =>
      rw [queryLines_cons_of_error hline] at h
      cases h
    | ok line =>
      rw [queryLines_cons_of_ok hline] at h ⊢
      obtain ⟨found, hfound, -, rfl⟩ := CredentialQuery.line_eq_ok_iff.1 hline
      obtain ⟨⟨answered, hanswered⟩, hlines⟩ := ih h
      refine ⟨⟨_, answeredIds_cons_eq_ok_iff.2 ⟨found, answered, hfound, hanswered, rfl⟩⟩, ?_⟩
      rw [hlines, CredentialQuery.answers_eq_filter hfound, List.map_cons]

/-- Every line is that of some query. -/
theorem exists_line_of_mem {w : Option Wallet} {line : Line} (h : line ∈ (queryLines w queries).1) :
    ∃ q ∈ queries, q.line w = .ok line := by
  induction queries with
  | nil => simp [queryLines] at h
  | cons q rest ih =>
    cases hline : q.line w with
    | error e' =>
      rw [queryLines_cons_of_error hline] at h
      simp at h
    | ok first =>
      rw [queryLines_cons_of_ok hline] at h
      rcases List.mem_cons.1 h with rfl | hrest
      · exact ⟨q, by simp, hline⟩
      · obtain ⟨p, hp, hpline⟩ := ih hrest
        exact ⟨p, by simp [hp], hpline⟩

end Lines

/-- Each line says which documents answer, and says that there is none exactly when the id is not answered. -/
theorem Catalogue.shown_eq {c : Catalogue} {documents : Wallet} {answered : List String}
    (h : c.available documents = .ok answered) {q : CredentialQuery} (hq : q ∈ c.entries) :
    q.head ++ answersShown (documents.filter q.admits) = q.shown documents answered := by
  unfold CredentialQuery.shown
  by_cases hid : q.id ∈ answered
  · obtain ⟨d, rest, hfilter⟩ := List.exists_cons_of_ne_nil ((Catalogue.mem_available_iff h hq).1 hid)
    rw [if_pos hid, hfilter]
    rfl
  · have hfilter : documents.filter q.admits = [] := by
      by_contra hne
      exact hid ((Catalogue.mem_available_iff h hq).2 hne)
    rw [if_neg hid, hfilter]
    rfl

/-! ### Explanations -/

namespace Request

variable {r : Request} {documents : Wallet} {e : RequestError}

/-- The heading of the credentials. -/
def credentialHeading : Line := [.bold "Credentials:"]

theorem credentialLines_eq (r : Request) (w : Option Wallet) :
    r.credentialLines w
      = (credentialHeading :: (queryLines w r.catalogue.entries).1, (queryLines w r.catalogue.entries).2) := rfl

theorem explanation_of_stop (h : (queryLines (some documents) r.catalogue.entries).2 = some e) :
    r.explanation (some documents)
      = { output := credentialHeading :: (queryLines (some documents) r.catalogue.entries).1
          stop := some (.failure (.request e)) } := by
  rw [explanation, credentialLines_eq, h]

theorem explanation_of_hidden {set : Nat} (h : (queryLines (some documents) r.catalogue.entries).2 = none)
    (hset : r.hiddenPurpose? = some set) :
    r.explanation (some documents)
      = { output := credentialHeading :: (queryLines (some documents) r.catalogue.entries).1 ++ setHeading
          stop := some (.failure (.request (.purposeNotShowable set))) } := by
  rw [explanation, credentialLines_eq, h, hset]

theorem explanation_of_none (h : (queryLines (some documents) r.catalogue.entries).2 = none)
    (hset : r.hiddenPurpose? = none) :
    r.explanation (some documents)
      = { output := credentialHeading :: (queryLines (some documents) r.catalogue.entries).1 ++ r.setLines } := by
  rw [explanation, credentialLines_eq, h, hset]

/-- An explanation that does not stop shows each query with the documents that answer it. -/
theorem explanation_of_stop_none (h : (r.explanation (some documents)).stop = none) :
    ∃ answered, r.catalogue.available documents = .ok answered ∧
      (r.explanation (some documents)).output
        = credentialHeading :: r.catalogue.entries.map (fun q => q.shown documents answered) ++ r.setLines := by
  cases hstop : (queryLines (some documents) r.catalogue.entries).2 with
  | some e =>
    rw [explanation_of_stop hstop] at h
    cases h
  | none =>
    cases hset : r.hiddenPurpose? with
    | some set =>
      rw [explanation_of_hidden hstop hset] at h
      cases h
    | none =>
      obtain ⟨⟨answered, hanswered⟩, hlines⟩ := queryLines_of_none hstop
      refine ⟨answered, hanswered, ?_⟩
      have hshown : r.catalogue.entries.map (fun q => q.head ++ answersShown (documents.filter q.admits))
          = r.catalogue.entries.map (fun q => q.shown documents answered) :=
        List.map_congr_left (fun q hq => Catalogue.shown_eq hanswered hq)
      rw [explanation_of_none hstop hset, hlines, hshown]

/-- An explanation fails for the reason for which no ids can be found, or for a reason that nobody is shown. -/
theorem explanation_stop {f : Failure} (h : (r.explanation (some documents)).stop = some (.failure f)) :
    (∃ e, r.catalogue.available documents = .error e ∧ f = .request e) ∨ f.message? = none := by
  cases hstop : (queryLines (some documents) r.catalogue.entries).2 with
  | some e =>
    rw [explanation_of_stop hstop] at h
    cases h
    rcases queryLines_stop hstop with herror | ⟨id, rfl, -⟩
    · exact Or.inl ⟨e, herror, rfl⟩
    · exact Or.inr rfl
  | none =>
    cases hset : r.hiddenPurpose? with
    | some set =>
      rw [explanation_of_hidden hstop hset] at h
      cases h
      exact Or.inr rfl
    | none =>
      rw [explanation_of_none hstop hset] at h
      cases h

end Request

end Disclosure
