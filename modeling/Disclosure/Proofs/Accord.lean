import Disclosure.Proofs.Legible
import Disclosure.Proofs.Outputs

/-!
# Disclosure.Proofs.Accord — the explanation of a request and the decision on it agree about the wallet

Both load the same files and hold the queries of the catalogue against the same documents, one by one for the lines of
the explanation and all at once for the ids of the decision.

* `Files.decision_of_explain_failure`, `Files.explain_stop_of_decision_error`: the explanation fails for what the decision
  fails for, and the other way round when it is legible.
* `Files.explain_of_stop_none`: what a successful explanation says of each query.
* `explain_resolve_agree`: the reasons that are shown, the ends without one, and the lines.
* `dated_request_explained`: a date has no JSON, so a decision can end where the explanation succeeds.
-/

namespace Disclosure

/-! ### Outcomes -/

namespace Outcome

/-- The run ends before any decision, with this reason. -/
def Reports (o : Outcome) (message : Text) : Prop := ∃ f, o.stop = some (.failure f) ∧ f.message? = some message

/-- The run ends without a reason that anybody is shown. -/
def IsUncaught (o : Outcome) : Prop := ∃ s, o.stop = some s ∧ s.message? = none

theorem isUncaught_congr {o o' : Outcome} (h : o.stop = o'.stop) : o.IsUncaught ↔ o'.IsUncaught := by
  rw [IsUncaught, IsUncaught, h]

end Outcome

/-! ### Agreement -/

namespace Files

variable {files : Files} {directory request wallet : Path} {marked : List String} {r : Request} {documents : Wallet}
  {f : Failure}

theorem explain_of_loaded (hr : files.loadRequest request = .ok r) (hw : files.loadWallet wallet = .ok documents) :
    (files.explain request (some wallet)).output = (r.explanation (some documents)).output ∧
      (files.explain request (some wallet)).stop = (r.explanation (some documents)).stop := by
  rw [explain, hr]
  simp [hw, Outcome.logged]

/-- Without a decision the request or the wallet cannot be loaded, or no ids can be found. -/
theorem cases_of_decision_error (h : files.decision directory request (some wallet) marked = .error f) :
    ((files.explain request (some wallet)).output = [] ∧
        (files.explain request (some wallet)).stop = some (.failure f)) ∨
      ∃ r documents e, files.loadRequest request = .ok r ∧ files.loadWallet wallet = .ok documents ∧
        r.catalogue.available documents = .error e ∧ f = .request e := by
  rcases decision_eq_error_iff.1 h with hr | ⟨r, hr, hw | ⟨documents, hw, e, he, rfl⟩⟩
  · left
    rw [explain, hr]
    exact ⟨rfl, rfl⟩
  · left
    have hw' : files.loadWallet wallet = .error f := hw
    rw [explain, hr]
    simp [hw', Outcome.logged, Outcome.failed]
  · exact Or.inr ⟨r, documents, e, hr, hw, Request.decide_eq_error_iff.1 he, rfl⟩

/-- An explanation that succeeds has loaded both files and shows every query. -/
theorem explain_of_stop_none (h : (files.explain request (some wallet)).stop = none) :
    ∃ r documents answered, files.loadRequest request = .ok r ∧ files.loadWallet wallet = .ok documents ∧
      r.catalogue.available documents = .ok answered ∧
      (files.explain request (some wallet)).output
        = Request.credentialHeading :: r.catalogue.entries.map (fun q => q.shown documents answered) ++ r.setLines := by
  cases hr : files.loadRequest request with
  | error f =>
    rw [explain, hr] at h
    cases h
  | ok r =>
    cases hw : files.loadWallet wallet with
    | error f =>
      rw [explain, hr] at h
      simp [hw, Outcome.failed, Outcome.logged] at h
    | ok documents =>
      obtain ⟨hout, hstop⟩ := explain_of_loaded hr hw
      rw [hstop] at h
      obtain ⟨answered, hanswered, hshown⟩ := Request.explanation_of_stop_none h
      exact ⟨r, documents, answered, rfl, rfl, hanswered, hout.trans hshown⟩

/-- What an explanation fails for, the decision fails for, unless it is a reason that nobody is shown. -/
theorem decision_of_explain_failure (h : (files.explain request (some wallet)).stop = some (.failure f)) :
    files.decision directory request (some wallet) marked = .error f ∨ f.message? = none := by
  rw [decision_eq_error_iff]
  cases hr : files.loadRequest request with
  | error f' =>
    rw [explain, hr] at h
    obtain rfl : f' = f := by simpa [Outcome.failed] using h
    exact Or.inl (Or.inl rfl)
  | ok r =>
    cases hw : files.loadWallet wallet with
    | error f' =>
      rw [explain, hr] at h
      obtain rfl : f' = f := by simpa [hw, Outcome.failed, Outcome.logged] using h
      exact Or.inl (Or.inr ⟨r, rfl, Or.inl hw⟩)
    | ok documents =>
      rw [(explain_of_loaded hr hw).2] at h
      refine (Request.explanation_stop h).imp_left ?_
      rintro ⟨e, he, rfl⟩
      exact Or.inr ⟨r, rfl, Or.inr ⟨documents, hw, e, Request.decide_eq_error_iff.2 he, rfl⟩⟩

/-- A legible explanation fails for what the decision fails for. -/
theorem explain_stop_of_decision_error
    (hlegible : ∀ r documents, files.loadRequest request = .ok r → files.loadWallet wallet = .ok documents →
      r.LinesLegible documents)
    (h : files.decision directory request (some wallet) marked = .error f) :
    (files.explain request (some wallet)).uptoPrintable.stop = some (.failure f) := by
  rcases cases_of_decision_error h with ⟨hout, hstop⟩ | ⟨r, documents, e, hr, hw, he, rfl⟩
  · rw [Outcome.uptoPrintable_of_all (by rw [hout]; rfl), hstop]
  · obtain ⟨hout, hstop⟩ := explain_of_loaded hr hw
    have hlines := hlegible r documents hr hw
    have hqueries := queryLines_stop_of_error hlines.showable he
    rw [Request.explanation_of_stop hqueries] at hout hstop
    rw [Outcome.uptoPrintable_of_all (by rw [hout]; exact hlines.all_isPrintable), hstop]

/-- A legible explanation succeeds when there is a decision. -/
theorem explain_stop_of_decision {d : Decision}
    (hlegible : ∀ r documents, files.loadRequest request = .ok r → files.loadWallet wallet = .ok documents →
      r.Legible documents)
    (h : files.decision directory request (some wallet) marked = .ok (r, d)) :
    (files.explain request (some wallet)).uptoPrintable.stop = none := by
  obtain ⟨hr, documents, hw, hd⟩ := decision_eq_ok_iff.1 h
  obtain ⟨answered, hanswered, -⟩ := Request.decide_eq_ok_iff.1 hd
  obtain ⟨hout, hstop⟩ := explain_of_loaded hr hw
  have hall := hlegible r documents hr hw
  have hqueries : (queryLines (some documents) r.catalogue.entries).2 = none := by
    rw [Option.eq_none_iff_forall_ne_some]
    intro e he
    rcases queryLines_stop he with herror | ⟨-, -, document, hdocument, hhidden⟩
    · have hboth := hanswered.symm.trans herror
      cases hboth
    · rw [hall.showable document hdocument] at hhidden
      cases hhidden
  rw [Request.explanation_of_none hqueries hall.hiddenPurpose?_eq_none] at hout hstop
  have hprintable : (files.explain request (some wallet)).output.all Line.isPrintable = true := by
    rw [hout, List.all_append, hall.all_isPrintable, hall.all_isPrintable_setLines]
    rfl
  rw [Outcome.uptoPrintable_of_all hprintable, hstop]

/-- What ends a run with a decision that can be written is shown to the user. -/
theorem not_isUncaught_resolve {d : Decision} {form : OutputForm}
    (h : files.decision directory request (some wallet) marked = .ok (r, d))
    (hformats : ∀ q ∈ r.catalogue.entries, q.format.isPrintable = true) (hjson : form = .json → d.HoldsJson) :
    ¬ (files.resolve directory request (some wallet) marked form).uptoPrintable.IsUncaught := by
  have hstop : (files.resolve directory request (some wallet) marked form).uptoPrintable.stop
      = if d.resolution.isSatisfied then none else some .unsatisfied := by
    cases form with
    | table => rw [uptoPrintable_resolve_table h hformats, (resolve_table h).2]
    | json =>
      obtain ⟨s, hs, -⟩ := d.exists_json (hjson rfl)
      rw [uptoPrintable_resolve_json h, (resolve_json h hs).2]
  rintro ⟨s, hs, hmessage⟩
  rw [hstop] at hs
  cases hsatisfied : d.resolution.isSatisfied with
  | true => simp [hsatisfied] at hs
  | false =>
    obtain rfl : Stop.unsatisfied = s := by simpa [hsatisfied] using hs
    cases hmessage

end Files

/-- **The explanation of a request and the decision on it agree about the wallet.**  A reason that the explanation reports
is one that the decision fails for; the other way round too, when the lines of the credentials are legible.  When all is
legible and what is selected has JSON, both end without a reason or neither does.  A successful explanation shows for each
query the documents that answer it, and says that there is none exactly when its id is not available from the wallet. -/
theorem explain_resolve_agree (files : Files) (directory request wallet : Path) (marked : List String)
    (form : OutputForm) :
    let explained := (files.explain request (some wallet)).uptoPrintable
    let resolved := (files.resolve directory request (some wallet) marked form).uptoPrintable
    (∀ m, explained.Reports m → resolved.Reports m) ∧
    ((∀ r documents, files.loadRequest request = .ok r → files.loadWallet wallet = .ok documents →
      r.LinesLegible documents) → ∀ m, resolved.Reports m → explained.Reports m) ∧
    ((∀ r documents, files.loadRequest request = .ok r → files.loadWallet wallet = .ok documents →
      r.Legible documents ∧ (form = .json → ∀ d, r.decide documents marked = .ok d → d.HoldsJson)) →
      (explained.IsUncaught ↔ resolved.IsUncaught)) ∧
    (explained.stop = none → ∃ r documents answered, files.loadRequest request = .ok r ∧
      files.loadWallet wallet = .ok documents ∧ r.catalogue.available documents = .ok answered ∧
      explained.output = Request.credentialHeading :: r.catalogue.entries.map (fun q => q.shown documents answered)
        ++ r.setLines) := by
  refine ⟨?_, ?_, ?_, ?_⟩
  · rintro m ⟨f, hstop, hm⟩
    rw [Outcome.uptoPrintable_of_stop_ne (by simp [hstop])] at hstop
    have hdecision : files.decision directory request (some wallet) marked = .error f := by
      rcases Files.decision_of_explain_failure hstop with h | h
      · exact h
      · rw [h] at hm
        cases hm
    exact ⟨f, Files.stop_eq_failure_iff.2 hdecision, hm⟩
  · rintro hlegible m ⟨f, hstop, hm⟩
    exact ⟨f, Files.explain_stop_of_decision_error hlegible (Files.stop_eq_failure_iff.1 hstop), hm⟩
  · intro hlegible
    cases h : files.decision directory request (some wallet) marked with
    | error f =>
      apply Outcome.isUncaught_congr
      have hlines := fun r documents hr hw => (hlegible r documents hr hw).1.toLinesLegible
      rw [Files.explain_stop_of_decision_error hlines h, Files.stop_eq_failure_iff.2 h]
    | ok decided =>
      obtain ⟨r, d⟩ := decided
      obtain ⟨hr, documents, hw, hd⟩ := Files.decision_eq_ok_iff.1 h
      obtain ⟨hall, hjson⟩ := hlegible r documents hr hw
      have hnone := Files.explain_stop_of_decision (fun r documents hr hw => (hlegible r documents hr hw).1) h
      refine iff_of_false ?_ (Files.not_isUncaught_resolve h hall.formats (fun hform => hjson hform d hd))
      rintro ⟨s, hs, -⟩
      rw [hnone] at hs
      cases hs
  · intro hstop
    have hself : (files.explain request (some wallet)).uptoPrintable = files.explain request (some wallet) :=
      Outcome.uptoPrintable_of_stop_ne (by simp [hstop])
    rw [hself] at hstop ⊢
    exact Files.explain_of_stop_none hstop

/-! ### A wallet -/

def walletPath : Path := .ofText "w.yml"

def walletText : String := "documents:\n- id: d1\n  format: f\n"

/-- A wallet with one document. -/
def walletData : Value :=
  .object [(.text "documents", .list [.object [(.text "id", .text "d1"), (.text "format", .text "f")]])]

def oneDocument : Wallet := [{ id := "d1", format := "f" }]

theorem ofYaml_walletText : Value.ofYaml (Text.unifyLineEnds walletText.toList) = .ok walletData := by
  decide +kernel

/-- A request and the wallet. -/
def filesWith (s : String) : Files := .ofTexts [(requestPath, s), (walletPath, walletText)]

theorem loadWallet_filesWith (s : String) : (filesWith s).loadWallet walletPath = .ok oneDocument :=
  Files.loadWallet_ofTexts rfl ofYaml_walletText rfl

theorem loadRequest_filesWith {s : String} {r : Request}
    (hv : Value.ofYaml (Text.unifyLineEnds s.toList) = .ok r.toValue) (hr : Request.ofValue r.toValue = .ok r) :
    (filesWith s).loadRequest requestPath = .ok r :=
  Files.loadRequest_ofTexts (by simp) hv hr

theorem legible_oneDocument {r : Request} (hformats : ∀ q ∈ r.catalogue.entries, q.format.isPrintable = true)
    (hgrouping : r.grouping = none) : r.Legible oneDocument where
  formats := hformats
  showable := by decide
  documents := by decide
  purposes := by simp [hgrouping]

/-- With the wallet the query is available and selected. -/
theorem decision_filesWith {s : String} {r : Request} (hr : (filesWith s).loadRequest requestPath = .ok r)
    (hd : r.decide oneDocument [] = .ok ⟨["a"], r.resolve (fun id => ["a"].contains id)⟩) :
    (filesWith s).decision homeDirectory requestPath (some walletPath) []
      = .ok (r, ⟨["a"], r.resolve (fun id => ["a"].contains id)⟩) :=
  Files.decision_eq_ok_iff.2 ⟨hr, oneDocument, loadWallet_filesWith s, hd⟩

/-- The document of the wallet answers the query, and both commands succeed. -/
theorem explain_resolve_agree_answered :
    let explained := ((filesWith plainText).explain requestPath (some walletPath)).uptoPrintable
    let resolved := ((filesWith plainText).resolve homeDirectory requestPath (some walletPath) [] .json).uptoPrintable
    (∀ r documents, (filesWith plainText).loadRequest requestPath = .ok r →
      (filesWith plainText).loadWallet walletPath = .ok documents →
      r.Legible documents ∧ (OutputForm.json = .json → ∀ d, r.decide documents [] = .ok d → d.HoldsJson)) ∧
    (explained.IsUncaught ↔ resolved.IsUncaught) ∧ (∀ m, explained.Reports m ↔ resolved.Reports m) ∧
    explained.stop = none ∧
    explained.output
      = Request.credentialHeading :: [[.plain "  a  ", .dim "f", .plain "  <- ", .green "d1 (N/A)"]]
        ++ plainRequest.setLines := by
  have hr : (filesWith plainText).loadRequest requestPath = .ok plainRequest :=
    loadRequest_filesWith ofYaml_plainText rfl
  have hw := loadWallet_filesWith plainText
  have hlegible : ∀ r documents, (filesWith plainText).loadRequest requestPath = .ok r →
      (filesWith plainText).loadWallet walletPath = .ok documents →
      r.Legible documents ∧ (OutputForm.json = .json → ∀ d, r.decide documents [] = .ok d → d.HoldsJson) := by
    intro r documents hr' hw'
    obtain rfl := Except.ok.inj (hr.symm.trans hr')
    obtain rfl := Except.ok.inj (hw.symm.trans hw')
    refine ⟨legible_oneDocument (by decide) rfl, fun _ d hd => ?_⟩
    obtain rfl := Except.ok.inj hd
    exact holdsJson_plain
  obtain ⟨hreports, hback, huncaught, hshown⟩ :=
    explain_resolve_agree (filesWith plainText) homeDirectory requestPath walletPath [] .json
  have hlines := fun r documents hr hw => (hlegible r documents hr hw).1.toLinesLegible
  have hexplained : ((filesWith plainText).explain requestPath (some walletPath)).uptoPrintable.stop = none :=
    Files.explain_stop_of_decision (fun r documents hr hw => (hlegible r documents hr hw).1)
      (decision_filesWith hr rfl)
  refine ⟨hlegible, huncaught hlegible, fun m => ⟨hreports m, hback hlines m⟩, hexplained, ?_⟩
  obtain ⟨r, documents, answered, hr', hw', hanswered, hout⟩ := hshown hexplained
  obtain rfl := Except.ok.inj (hr.symm.trans hr')
  obtain rfl := Except.ok.inj (hw.symm.trans hw')
  obtain rfl := Except.ok.inj hanswered
  exact hout

/-- The document answers the query too when its metadata hold a date: the explanation succeeds, and the decision has no
JSON. -/
theorem dated_request_explained :
    let explained := ((filesWith datedText).explain requestPath (some walletPath)).uptoPrintable
    let resolved := ((filesWith datedText).resolve homeDirectory requestPath (some walletPath) [] .json).uptoPrintable
    explained.stop = none ∧ resolved.stop = some (.unwritable .noForm) ∧
      ¬ (explained.IsUncaught ↔ resolved.IsUncaught) := by
  have hr : (filesWith datedText).loadRequest requestPath = .ok datedRequest :=
    loadRequest_filesWith ofYaml_datedText rfl
  have hw := loadWallet_filesWith datedText
  have hdecision := decision_filesWith hr rfl
  have hresolved := (Files.resolve_unwritable hdecision json_dated).2
  rw [← Files.uptoPrintable_resolve_json hdecision] at hresolved
  have hexplained : ((filesWith datedText).explain requestPath (some walletPath)).uptoPrintable.stop = none := by
    refine Files.explain_stop_of_decision (fun r documents hr' hw' => ?_) hdecision
    obtain rfl := Except.ok.inj (hr.symm.trans hr')
    obtain rfl := Except.ok.inj (hw.symm.trans hw')
    exact legible_oneDocument (by decide) rfl
  refine ⟨hexplained, hresolved, fun hiff => ?_⟩
  obtain ⟨s, hs, -⟩ := hiff.2 ⟨_, hresolved, rfl⟩
  rw [hexplained] at hs
  cases hs

end Disclosure
