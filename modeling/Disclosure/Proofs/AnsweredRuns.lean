import Disclosure.Presentation
import Disclosure.Proofs.Accord
import Disclosure.Proofs.PlainData

/-!
# Disclosure.Proofs.AnsweredRuns — how a command ends, whatever its files hold

A command is answered when it succeeds, or fails with an error text.  It ends without an answer when it fails for a reason
that nobody is shown.  For files whose bytes are UTF-8 and spell plain data, or nothing for a reported fault, every
command is answered; for files that hide why they cannot be loaded none is.  Data are as deep as they are: that a run has
room for less than a thousand levels is left out here as everywhere (see `Disclosure.Value`).

* `Outcome.isAnswered_iff`: a command is answered unless it ends for a reason without a wording.
* `Files.Sound`: files that hide nothing; `Files.Sound.not_hides`.
* `Files.isAnswered_resolve_iff`: which decisions are answered.
* `Command.stop_of_fails`: a command ends for the first of its files that cannot be loaded.
* `file_contents_answered`: loading, and the commands.
* `undecodable_file_unanswered`: a file that is not UTF-8.
-/

namespace Disclosure

/-! ### Answers -/

namespace Outcome

variable {o : Outcome}

/-- Success without an error text, or exit status 1 and an error text, on every screen. -/
def IsAnswered (o : Outcome) : Prop :=
  (o.status = 0 ∧ ∀ look : Presentation, look.errorText o = "") ∨
    o.status = 1 ∧ ∃ message, ∀ look : Presentation, look.errorText o = "Error: " ++ (look.printed message).shown ++ "\n"

theorem errorText_of_none (look : Presentation) (h : o.stop.bind Stop.message? = none) : look.errorText o = "" := by
  rw [Presentation.errorText, h]

theorem errorText_of_some (look : Presentation) {m : Text} (h : o.stop.bind Stop.message? = some m) :
    look.errorText o = "Error: " ++ (look.printed m).shown ++ "\n" := by
  rw [Presentation.errorText, h]

theorem isAnswered_iff : o.IsAnswered ↔ ∀ s, o.stop = some s → ∃ m, s.message? = some m := by
  constructor
  · rintro (⟨hstatus, -⟩ | ⟨-, message, htext⟩) s hs
    · rw [status_eq_zero_iff.1 hstatus] at hs
      cases hs
    · by_contra hnone
      rw [← Option.ne_none_iff_exists', not_not] at hnone
      -- without a wording there is no error text at all
      have hempty := errorText_of_none (o := o) {} (by rw [hs]; exact hnone)
      rw [htext] at hempty
      simp at hempty
  · intro h
    cases hs : o.stop with
    | none => exact Or.inl ⟨status_eq_zero_iff.2 hs, fun look => errorText_of_none look (by rw [hs]; rfl)⟩
    | some s =>
      obtain ⟨m, hm⟩ := h s hs
      refine Or.inr ⟨by rw [status, hs]; rfl, m, fun look => errorText_of_some look ?_⟩
      rw [hs]
      exact hm

theorem not_isAnswered_iff : ¬ o.IsAnswered ↔ o.IsUncaught := by
  rw [isAnswered_iff, IsUncaught]
  simp only [not_forall, exists_prop, ← Option.ne_none_iff_exists', ne_eq, not_not]

end Outcome

theorem Stop.exists_message_of_verdict {satisfied : Bool} :
    ∀ s, (if satisfied then none else some Stop.unsatisfied) = some s → ∃ m, s.message? = some m := by
  cases satisfied with
  | true => simp
  | false =>
    rintro s ⟨⟩
    exact ⟨_, rfl⟩

/-- What a decision needs to be shown: formats without surrogates in the table, and JSON for the document. -/
def Decision.CanBeShown (d : Decision) (c : Catalogue) : OutputForm → Prop
  | .table => ∀ q ∈ c.entries, q.format.isPrintable = true
  | .json => ∃ s, d.resolution.json = .ok s

/-! ### Sound files -/

namespace Files

variable {files : Files} {directory request path : Path} {wallet : Option Path} {marked : List String} {f : Failure}

/-- The file cannot be read for a reason with a wording, or its bytes are UTF-8 and spell plain data of any depth, or no
data for a fault that is reported. -/
inductive Sound (files : Files) (path : Path) : Prop
  | unread {fault : ReadFault} (read : files path = .error fault) (worded : fault ≠ .noName)
  | data {bytes : ByteArray} {s : String} {v : Value} (read : files path = .ok bytes)
    (decoded : String.fromUTF8? bytes = some s) (spelled : Value.ofYaml (Text.unifyLineEnds s.toList) = .ok v)
    (plain : v.IsPlain)
  | faulty {bytes : ByteArray} {s : String} {fault : Yaml.Fault} (read : files path = .ok bytes)
    (decoded : String.fromUTF8? bytes = some s) (spelled : Value.ofYaml (Text.unifyLineEnds s.toList) = .error fault)
    (reported : fault.cause.flaw? = none)

namespace Sound

theorem message?_ne_none (h : files.Sound path) (hf : files.loadValue path = .error f) : f.message? ≠ none := by
  unfold loadValue at hf
  cases h with
  | @unread fault hread hworded =>
    rw [hread] at hf
    cases hf
    cases fault <;> simp [Failure.message?, ReadFault.message?] at hworded ⊢
  | data hread hdecoded hspelled _ =>
    simp only [hread, hdecoded, hspelled, Except.mapError, reduceCtorEq] at hf
  | faulty hread hdecoded hspelled hreported =>
    simp only [hread, hdecoded, hspelled, Except.mapError, Except.error.injEq] at hf
    rw [← hf, ne_eq, message?_ofFault_eq_none_iff, hreported]
    simp

theorem not_hides (h : files.Sound path) : ¬ files.Hides path f := by
  intro hhides
  exact h.message?_ne_none hhides.loadValue hhides.message?_eq_none

theorem isPlain {v : Value} (h : files.Sound path) (hv : files.loadValue path = .ok v) : v.IsPlain := by
  unfold loadValue at hv
  cases h with
  | unread hread _ =>
    rw [hread] at hv
    cases hv
  | data hread hdecoded hspelled hplain =>
    simp only [hread, hdecoded, hspelled, Except.mapError, Except.ok.injEq] at hv
    exact hv ▸ hplain
  | faulty hread hdecoded hspelled _ =>
    simp only [hread, hdecoded, hspelled, Except.mapError, reduceCtorEq] at hv

/-- A request that cannot be loaded from a sound file is refused for a reason. -/
theorem loadRequest_error (h : files.Sound path) (hf : files.loadRequest path = .error f) :
    f.IsOfFile ∨ f.IsOfRequest := by
  rcases cases_of_loadRequest hf with hfile | hrequest | hhides
  · exact Or.inl hfile
  · exact Or.inr hrequest
  · exact absurd hhides h.not_hides

/-- A wallet that cannot be loaded from a sound file is refused for a reason. -/
theorem loadWallet_error (h : files.Sound path) (hf : files.loadWallet path = .error f) : f.IsOfFile := by
  cases hm : f.message? with
  | some m => exact isOfFile_of_loadWallet hf hm
  | none =>
    rcases (loadWallet_hidden_iff hf).1 hm with hhides | ⟨v, i, hv, hentry, -⟩
    · exact absurd hhides h.not_hides
    · exact absurd hentry (Wallet.not_hidesEntry_of_isPlain (h.isPlain hv))

theorem request_isPlain {r : Request} (h : files.Sound path) (hr : files.loadRequest path = .ok r) : r.IsPlain := by
  obtain ⟨v, hv, hread⟩ := bind_eq_ok_iff.1 hr
  exact Request.isPlain_of_ofValue (h.isPlain hv) (mapError_eq_ok_iff.1 hread)

theorem wallet_isPlain {documents : Wallet} (h : files.Sound path) (hw : files.loadWallet path = .ok documents) :
    ∀ d ∈ documents, d.IsPlain := by
  obtain ⟨v, hv, hread⟩ := bind_eq_ok_iff.1 hw
  exact Wallet.isPlain_of_ofValue (h.isPlain hv) (mapError_eq_ok_iff.1 hread)

end Sound

/-! ### Decisions -/

theorem isOfFile_of_documents (hw : ∀ p, files.walletPath? wallet directory = some p → files.Sound p)
    (h : files.documents directory wallet = .error f) : f.IsOfFile := by
  unfold documents at h
  cases hpath : files.walletPath? wallet directory with
  | none =>
    rw [hpath] at h
    cases h
  | some p =>
    rw [hpath] at h
    exact (hw p hpath).loadWallet_error h

theorem isPlain_of_documents (hw : ∀ p, files.walletPath? wallet directory = some p → files.Sound p)
    {documents : Wallet} (h : files.documents directory wallet = .ok documents) : ∀ d ∈ documents, d.IsPlain := by
  unfold Files.documents at h
  cases hpath : files.walletPath? wallet directory with
  | none =>
    rw [hpath] at h
    obtain rfl := Except.ok.inj h
    simp
  | some p =>
    rw [hpath] at h
    exact (hw p hpath).wallet_isPlain h

/-- From sound files a decision is made, or it fails for a reason that is reported. -/
theorem exists_message_of_decision (hr : files.Sound request)
    (hw : ∀ p, files.walletPath? wallet directory = some p → files.Sound p)
    (h : files.decision directory request wallet marked = .error f) : ∃ m, f.message? = some m := by
  rw [Failure.exists_message_iff]
  rcases decision_eq_error_iff.1 h with hload | ⟨r, hload, hdocuments | ⟨documents, hdocuments, e, he, rfl⟩⟩
  · exact hr.loadRequest_error hload
  · exact Or.inl (isOfFile_of_documents hw hdocuments)
  · have hreported := Request.allReported_decide (hr.request_isPlain hload) (isPlain_of_documents hw hdocuments) marked
    exact Or.inr ⟨e, hreported e he, rfl⟩

/-- A run is answered exactly when it fails for a reason that is reported, or has a decision that can be shown. -/
theorem isAnswered_resolve_iff {form : OutputForm} :
    (files.resolve directory request wallet marked form).uptoPrintable.IsAnswered ↔
      (∀ f, files.decision directory request wallet marked = .error f → ∃ m, f.message? = some m) ∧
        ∀ r d, files.decision directory request wallet marked = .ok (r, d) → d.CanBeShown r.catalogue form := by
  rw [Outcome.isAnswered_iff]
  cases hdecision : files.decision directory request wallet marked with
  | error f =>
    rw [uptoPrintable_resolve_of_error form hdecision, (resolve_of_error form hdecision).1]
    simp [Stop.message?]
  | ok decided =>
    obtain ⟨r, d⟩ := decided
    have hshown : (∀ r' d', Except.ok (ε := Failure) (r, d) = .ok (r', d') → d'.CanBeShown r'.catalogue form) ↔
        d.CanBeShown r.catalogue form := by
      constructor
      · intro h
        exact h r d rfl
      · rintro h r' d' ⟨⟩
        exact h
    rw [hshown]
    simp only [reduceCtorEq, false_imp_iff, implies_true, true_and]
    cases form with
    | table =>
      by_cases hformats : ∀ q ∈ r.catalogue.entries, q.format.isPrintable = true
      · rw [uptoPrintable_resolve_table hdecision hformats, (resolve_table hdecision).2]
        exact iff_of_true Stop.exists_message_of_verdict hformats
      · obtain ⟨q, hq, hformat⟩ : ∃ q ∈ r.catalogue.entries, q.format.isPrintable = false := by simpa using hformats
        rw [stop_of_unprintable hdecision hq hformat]
        exact iff_of_false (by simp [Stop.message?]) hformats
    | json =>
      rw [uptoPrintable_resolve_json hdecision]
      cases hs : d.resolution.json with
      | ok s =>
        rw [(resolve_json hdecision hs).2]
        exact iff_of_true Stop.exists_message_of_verdict ⟨s, hs⟩
      | error why =>
        rw [(resolve_unwritable hdecision hs).2]
        refine iff_of_false (by simp [Stop.message?]) ?_
        rintro ⟨s, hs'⟩
        rw [hs] at hs'
        cases hs'

/-- With sound files a decision that is made can be shown. -/
theorem Sound.canBeShown {form : OutputForm} {r : Request} {d : Decision} (hr : files.Sound request)
    (h : files.decision directory request wallet marked = .ok (r, d)) : d.CanBeShown r.catalogue form := by
  obtain ⟨hload, -⟩ := decision_eq_ok_iff.1 h
  cases form with
  | table => exact (hr.request_isPlain hload).formats
  | json =>
    obtain ⟨v, hv, -⟩ := bind_eq_ok_iff.1 hload
    obtain ⟨s, hs, -⟩ := d.exists_json (holdsJson_of_isJson h hv (hr.isPlain hv).isJson)
    exact ⟨s, hs⟩

/-! ### Explanations -/

theorem queryLines_none (queries : List CredentialQuery) :
    queryLines none queries = (queries.map CredentialQuery.head, none) := by
  induction queries with
  | nil => rfl
  | cons q rest ih =>
    have hline : q.line none = .ok q.head := rfl
    rw [queryLines_cons_of_ok hline, ih]
    rfl

/-- Without a wallet the explanation of a legible request succeeds, and can be printed. -/
theorem explanation_none {r : Request} (h : r.Legible []) :
    (r.explanation none).stop = none ∧ (r.explanation none).output.all Line.isPrintable = true := by
  rw [Request.explanation, Request.credentialLines_eq, queryLines_none, h.hiddenPurpose?_eq_none]
  refine ⟨rfl, ?_⟩
  have hheads : (r.catalogue.entries.map CredentialQuery.head).all Line.isPrintable = true := by
    rw [List.all_map, List.all_eq_true]
    intro q hq
    simp [Line.isPrintable, CredentialQuery.head, Span.plain, Span.dim, h.formats q hq]
  rw [List.all_append, h.all_isPrintable_setLines, List.all_cons, hheads]
  rfl

/-- With sound files an explanation is answered. -/
theorem isAnswered_explain (hr : files.Sound request) (hw : ∀ p, wallet = some p → files.Sound p) :
    (files.explain request wallet).uptoPrintable.IsAnswered := by
  rw [Outcome.isAnswered_iff]
  cases wallet with
  | none =>
    cases hload : files.loadRequest request with
    | error f =>
      have hexplain : files.explain request none = .failed f := by rw [explain, hload]
      rintro s hs
      rw [hexplain, Outcome.uptoPrintable_of_all rfl] at hs
      cases hs
      exact Failure.exists_message_iff.2 (hr.loadRequest_error hload)
    | ok r =>
      have hexplain : files.explain request none = (r.explanation none).logged (r.loadedFrom request) := by
        rw [explain, hload]
      have hlegible : r.Legible [] := Request.legible_of_isPlain (hr.request_isPlain hload) (by simp)
      obtain ⟨hstop, hprintable⟩ := explanation_none hlegible
      have hall : ((r.explanation none).logged (r.loadedFrom request)).output.all Line.isPrintable = true := hprintable
      rw [hexplain, Outcome.uptoPrintable_of_all hall, Outcome.logged, hstop]
      simp
  | some p =>
    have hlegible : ∀ r documents, files.loadRequest request = .ok r → files.loadWallet p = .ok documents →
        r.Legible documents :=
      fun r documents hload hdocuments =>
        Request.legible_of_isPlain (hr.request_isPlain hload) ((hw p rfl).wallet_isPlain hdocuments)
    -- the wallet is named, so the directory of the decision does not matter
    have hw' : ∀ q, files.walletPath? (some p) p = some q → files.Sound q := hw
    cases hdecision : files.decision p request (some p) [] with
    | error f =>
      have hlines := fun r documents hload hdocuments => (hlegible r documents hload hdocuments).toLinesLegible
      rw [explain_stop_of_decision_error hlines hdecision]
      rintro s ⟨⟩
      exact exists_message_of_decision hr hw' hdecision
    | ok decided =>
      rw [explain_stop_of_decision hlegible hdecision]
      simp

end Files

/-! ### Commands -/

namespace Command

/-- The file of the request. -/
def request : Command → Path
  | .resolve request .. => request
  | .explain request _ => request

/-- The file of the wallet, if one is read. -/
def wallet? (command : Command) (env : Surroundings) : Option Path :=
  match command with
  | .resolve _ wallet _ _ => env.files.walletPath? wallet env.directory
  | .explain _ wallet => wallet

/-- The files that the command reads. -/
def reads (command : Command) (env : Surroundings) : List Path := command.request :: (command.wallet? env).toList

/-- The first file of the command that cannot be loaded, and why. -/
def Fails (command : Command) (env : Surroundings) (f : Failure) : Prop :=
  env.files.loadRequest command.request = .error f ∨
    (∃ r, env.files.loadRequest command.request = .ok r) ∧
      ∃ path, command.wallet? env = some path ∧ env.files.loadWallet path = .error f

variable {command : Command} {env : Surroundings} {f : Failure}

/-- A command ends for the first of its files that cannot be loaded. -/
theorem stop_of_fails (h : command.Fails env f) : (command.outcome env).uptoPrintable.stop = some (.failure f) := by
  cases command with
  | resolve request wallet marked form =>
    refine Files.stop_eq_failure_iff.2 (Files.decision_eq_error_iff.2 ?_)
    rcases h with hrequest | ⟨⟨r, hr⟩, path, hpath, hwallet⟩
    · exact Or.inl hrequest
    · refine Or.inr ⟨r, hr, Or.inl ?_⟩
      have hpath' : env.files.walletPath? wallet env.directory = some path := hpath
      rw [Files.documents, hpath']
      exact hwallet
  | explain request wallet =>
    rcases h with hrequest | ⟨⟨r, hr⟩, path, hpath, hwallet⟩
    · have hrequest' : env.files.loadRequest request = .error f := hrequest
      have houtcome : (Command.explain request wallet).outcome env = .failed f := by
        rw [outcome, Files.explain, hrequest']
      rw [houtcome, Outcome.uptoPrintable_of_all rfl]
      rfl
    · have hr' : env.files.loadRequest request = .ok r := hr
      obtain rfl : wallet = some path := hpath
      have houtcome : (Command.explain request (some path)).outcome env
          = (Outcome.failed f).logged (r.loadedFrom request) := by
        rw [outcome, Files.explain, hr']
        simp only [hwallet]
      rw [houtcome, Outcome.uptoPrintable_of_all rfl]
      rfl

theorem isAnswered_of_sound (h : ∀ path ∈ command.reads env, env.files.Sound path) :
    (command.outcome env).uptoPrintable.IsAnswered := by
  obtain ⟨hr, hw⟩ := List.forall_mem_cons.1 h
  simp only [Option.mem_toList] at hw
  cases command with
  | resolve request wallet marked form =>
    refine Files.isAnswered_resolve_iff.2 ⟨fun f hf => ?_, fun r d hd => Files.Sound.canBeShown hr hd⟩
    exact Files.exists_message_of_decision hr hw hf
  | explain request wallet => exact Files.isAnswered_explain hr hw

end Command

/-- **What a file holds is answered, unless the file hides it.**  A request that cannot be loaded fails without a reason
exactly when its file hides why; a wallet also when it has an entry that cannot be written.  A sound file never does: what
is reported of it is about the file, or about the request in it.  When all files that a command reads are sound, it ends
with status 0, or with status 1 and an error text; when one of them cannot be loaded, it does so exactly if that is
reported. -/
theorem file_contents_answered (files : Files) (path : Path) (command : Command) (env : Surroundings) (f : Failure) :
    (files.loadRequest path = .error f →
      (f.message? = none ↔ files.Hides path f) ∧ (files.Sound path → f.IsOfFile ∨ f.IsOfRequest)) ∧
    (files.loadWallet path = .error f →
      (f.message? = none ↔ files.Hides path f ∨
        ∃ v i, files.loadValue path = .ok v ∧ Wallet.HidesEntry v i ∧ f = .wallet (.entryNotShowable i)) ∧
      (files.Sound path → f.IsOfFile)) ∧
    (files.Hides path f → files.loadRequest path = .error f ∧ files.loadWallet path = .error f) ∧
    ((∀ p ∈ command.reads env, env.files.Sound p) → (command.outcome env).uptoPrintable.IsAnswered) ∧
    (command.Fails env f → ((command.outcome env).uptoPrintable.IsAnswered ↔ f.message? ≠ none)) := by
  refine ⟨?_, ?_, ?_, Command.isAnswered_of_sound, ?_⟩
  · intro h
    exact ⟨Files.loadRequest_hidden_iff h, fun hsound => hsound.loadRequest_error h⟩
  · intro h
    exact ⟨Files.loadWallet_hidden_iff h, fun hsound => hsound.loadWallet_error h⟩
  · intro h
    exact ⟨Files.loadRequest_eq_error_iff.2 (Or.inl h.loadValue), Files.loadWallet_eq_error_iff.2 (Or.inl h.loadValue)⟩
  · intro h
    rw [Outcome.isAnswered_iff, Command.stop_of_fails h]
    simp [Stop.message?, Option.ne_none_iff_exists']

/-! ### A file that is not UTF-8 -/

theorem Files.sound_ofTexts {texts : List (Path × String)} {path : Path} {s : String} {v : Value}
    (hs : texts.lookup path = some s) (hv : Value.ofYaml (Text.unifyLineEnds s.toList) = .ok v) (hplain : v.IsPlain) :
    (Files.ofTexts texts).Sound path := by
  have hread : Files.ofTexts texts path = .ok s.toUTF8 := by rw [Files.ofTexts, hs]
  exact .data hread (fromUTF8?_toUTF8 s) hv hplain

/-- A single byte that no character begins with. -/
def loneByte : Files := fun _ => .ok ⟨#[0xff]⟩

theorem hides_loneByte (path : Path) : loneByte.Hides path (.undecodable path) := by
  have hbad : String.fromUTF8? ⟨#[0xff]⟩ = none := by decide +kernel
  have hknown : Files.knownFault? ⟨#[0xff]⟩ = none := by decide +kernel
  exact .badBytes rfl hbad hknown

/-- Both commands are answered for a request and a wallet of plain data, and neither for the byte. -/
theorem file_contents_answered_plain :
    let sound : Surroundings := { files := filesWith plainText, directory := homeDirectory }
    let bad : Surroundings := { files := loneByte, directory := homeDirectory }
    let resolve : Command := .resolve requestPath (some walletPath) [] .json
    let explain : Command := .explain requestPath (some walletPath)
    (∀ p ∈ resolve.reads sound, sound.files.Sound p) ∧ (resolve.outcome sound).uptoPrintable.IsAnswered ∧
      (explain.outcome sound).uptoPrintable.IsAnswered ∧
      loneByte.loadRequest requestPath = .error (.undecodable requestPath) ∧
      ¬ (resolve.outcome bad).uptoPrintable.IsAnswered ∧ ¬ (explain.outcome bad).uptoPrintable.IsAnswered := by
  intro sound bad resolve explain
  have hrequest : (filesWith plainText).Sound requestPath := by
    refine Files.sound_ofTexts (by simp) ofYaml_plainText ?_
    exact ⟨⟨_, rfl⟩, ⟨⟨⟨_, rfl⟩, ⟨trivial, rfl⟩, ⟨_, rfl⟩, ⟨trivial, rfl⟩, trivial⟩, trivial⟩, trivial⟩
  have hwallet : (filesWith plainText).Sound walletPath := by
    refine Files.sound_ofTexts rfl ofYaml_walletText ?_
    exact ⟨⟨_, rfl⟩, ⟨⟨⟨_, rfl⟩, ⟨trivial, rfl⟩, ⟨_, rfl⟩, ⟨trivial, rfl⟩, trivial⟩, trivial⟩, trivial⟩
  have hsound : ∀ p ∈ [requestPath, walletPath], (filesWith plainText).Sound p := by
    simp [hrequest, hwallet]
  have hanswered : ∀ command : Command, command.reads sound = [requestPath, walletPath] →
      (command.outcome sound).uptoPrintable.IsAnswered := by
    intro command hreads
    obtain ⟨-, -, -, hcommand, -⟩ :=
      file_contents_answered loneByte requestPath command sound (.undecodable requestPath)
    exact hcommand (hreads ▸ hsound)
  have hunanswered : ∀ command : Command, command.request = requestPath →
      loneByte.loadRequest requestPath = .error (.undecodable requestPath) ∧
        ¬ (command.outcome bad).uptoPrintable.IsAnswered := by
    intro command hpath
    obtain ⟨-, -, hload, -, hcommand⟩ :=
      file_contents_answered loneByte requestPath command bad (.undecodable requestPath)
    obtain ⟨hrequest, -⟩ := hload (hides_loneByte requestPath)
    refine ⟨hrequest, fun hanswered => (hcommand (Or.inl ?_)).1 hanswered rfl⟩
    rw [hpath]
    exact hrequest
  obtain ⟨hload, hresolve⟩ := hunanswered resolve rfl
  exact ⟨hsound, hanswered resolve rfl, hanswered explain rfl, hload, hresolve, (hunanswered explain rfl).2⟩

/-- The byte is no request and no wallet, and nobody is told why: each command ends with status 1 and without an error
text. -/
theorem undecodable_file_unanswered :
    let f : Failure := .undecodable requestPath
    let env : Surroundings := { files := loneByte, directory := homeDirectory }
    loneByte.loadRequest requestPath = .error f ∧ loneByte.loadWallet requestPath = .error f ∧ ¬ f.IsOfFile ∧
      ¬ f.IsOfRequest ∧
      ∀ command : Command, command.request = requestPath →
        ¬ (command.outcome env).uptoPrintable.IsAnswered ∧ (command.outcome env).uptoPrintable.status = 1 ∧
          ∀ look : Presentation, look.errorText (command.outcome env).uptoPrintable = "" := by
  intro f env
  have hvalue : loneByte.loadValue requestPath = .error f := (hides_loneByte requestPath).loadValue
  have hload : loneByte.loadRequest requestPath = .error f := Files.loadRequest_eq_error_iff.2 (Or.inl hvalue)
  have hsilent : ¬ (f.IsOfFile ∨ f.IsOfRequest) := by
    rw [← Failure.exists_message_iff]
    simp [f, Failure.message?]
  rw [not_or] at hsilent
  refine ⟨hload, Files.loadWallet_eq_error_iff.2 (Or.inl hvalue), hsilent.1, hsilent.2, fun command hpath => ?_⟩
  have hstop : (command.outcome env).uptoPrintable.stop = some (.failure f) := by
    refine Command.stop_of_fails (Or.inl ?_)
    rw [hpath]
    exact hload
  refine ⟨?_, ?_, fun look => ?_⟩
  · rw [Outcome.not_isAnswered_iff]
    exact ⟨_, hstop, rfl⟩
  · rw [Outcome.status, hstop]
    rfl
  · apply Outcome.errorText_of_none
    rw [hstop]
    rfl

end Disclosure
