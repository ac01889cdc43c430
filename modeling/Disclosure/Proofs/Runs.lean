import Disclosure.Outcome
import Disclosure.Proofs.Table

/-!
# Disclosure.Proofs.Runs — what deciding a request from files does

A run loads a request and the documents of a wallet, decides the request, and prints the decision.  `Files.decision` is
the first half: the request and the decision, or the first failure.

* `Files.resolve_of_error`: without a decision the run ends with that failure, and prints at most what is printed about
  the wallet.
* `Files.resolve_json`, `Files.resolve_unwritable`, `Files.resolve_table`: what is printed of a decision, and how the
  run ends.
* `Files.loadRequest_ofTexts`, `Files.loadWallet_ofTexts`: what is loaded from texts in memory.
* `Files.uptoPrintable_resolve_json`, `Files.uptoPrintable_resolve_table`, `Files.stop_of_unprintable`: which runs a
  surrogate ends.
-/

namespace Disclosure

theorem mapError_eq_ok_iff {ε ε' α : Type} {f : ε → ε'} {x : Except ε α} {a : α} :
    x.mapError f = .ok a ↔ x = .ok a := by
  cases x <;> simp [Except.mapError]

theorem mapError_eq_error_iff {ε ε' α : Type} {f : ε → ε'} {x : Except ε α} {e : ε'} :
    x.mapError f = .error e ↔ ∃ e', x = .error e' ∧ e = f e' := by
  cases x <;> simp [Except.mapError, eq_comm]

namespace Files

/-- The documents of the wallet to use; none without a wallet. -/
def documents (files : Files) (directory : Path) (wallet : Option Path) : Except Failure Wallet :=
  match files.walletPath? wallet directory with
  | none => .ok []
  | some path => files.loadWallet path

/-- What is printed about the wallet to use, if there is one and it can be loaded. -/
def notice (files : Files) (directory : Path) (wallet : Option Path) (form : OutputForm) : List Line :=
  match files.walletPath? wallet directory with
  | none => []
  | some path =>
    match files.loadWallet path with
    | .error _ => []
    | .ok documents => Wallet.notice documents path form

/-- The request in a file and the decision on it, or the first failure on the way. -/
def decision (files : Files) (directory request : Path) (wallet : Option Path) (marked : List String) :
    Except Failure (Request × Decision) := do
  let r ← files.loadRequest request
  let documents ← files.documents directory wallet
  let d ← (r.decide documents marked).mapError Failure.request
  return (r, d)

variable {files : Files} {directory request : Path} {wallet : Option Path} {marked : List String}
  {r : Request} {d : Decision} {f : Failure}

theorem decision_eq_ok_iff : files.decision directory request wallet marked = .ok (r, d) ↔
    files.loadRequest request = .ok r ∧ ∃ documents, files.documents directory wallet = .ok documents ∧
      r.decide documents marked = .ok d := by
  simp only [decision, bind_eq_ok_iff, mapError_eq_ok_iff, pure, Except.pure, Except.ok.injEq, Prod.mk.injEq]
  constructor
  · rintro ⟨r', hr, documents, hdocuments, d', hd, rfl, rfl⟩
    exact ⟨hr, documents, hdocuments, hd⟩
  · rintro ⟨hr, documents, hdocuments, hd⟩
    exact ⟨r, hr, documents, hdocuments, d, hd, rfl, rfl⟩

theorem decision_eq_error_iff : files.decision directory request wallet marked = .error f ↔
    files.loadRequest request = .error f ∨ ∃ r, files.loadRequest request = .ok r ∧
      (files.documents directory wallet = .error f ∨ ∃ documents, files.documents directory wallet = .ok documents ∧
        ∃ e, r.decide documents marked = .error e ∧ f = .request e) := by
  simp only [decision, bind_eq_error_iff, mapError_eq_error_iff, pure, Except.pure, reduceCtorEq, and_false,
    exists_false, or_false]

theorem isPrintable_notice (form : OutputForm) :
    (files.notice directory wallet form).all Line.isPrintable = true := by
  unfold notice
  split
  · rfl
  · split
    · rfl
    · cases form <;> simp [Wallet.notice, Line.isPrintable, Span.dim]

theorem resolve_of_error (form : OutputForm) (h : files.decision directory request wallet marked = .error f) :
    (files.resolve directory request wallet marked form).stop = some (.failure f) ∧
      ∀ line ∈ (files.resolve directory request wallet marked form).output,
        line ∈ files.notice directory wallet form := by
  unfold resolve
  rcases decision_eq_error_iff.1 h with hr | ⟨r, hr, hrest⟩
  · rw [hr]
    simp [Outcome.failed]
  rw [hr]
  unfold documents at hrest
  unfold notice
  cases hpath : files.walletPath? wallet directory with
  | none =>
    simp only [hpath, reduceCtorEq, false_or, Except.ok.injEq, exists_eq_left'] at hrest
    obtain ⟨e, he, rfl⟩ := hrest
    simp [Request.verdict, he, Outcome.failed, Outcome.logged]
  | some path =>
    simp only [hpath] at hrest
    rcases hrest with hwallet | ⟨documents, hwallet, e, he, rfl⟩
    · simp [hwallet, Outcome.failed, Outcome.logged]
    · simp [hwallet, Request.verdict, he, Outcome.failed, Outcome.logged, Outcome.printed]

theorem uptoPrintable_resolve_of_error (form : OutputForm)
    (h : files.decision directory request wallet marked = .error f) :
    (files.resolve directory request wallet marked form).uptoPrintable
      = files.resolve directory request wallet marked form := by
  apply Outcome.uptoPrintable_of_all
  rw [List.all_eq_true]
  intro line hline
  exact List.all_eq_true.1 (isPrintable_notice form) line ((resolve_of_error form h).2 line hline)

/-- With a decision the verdict on the request follows what is printed about the wallet. -/
theorem resolve_of_decision (form : OutputForm) (h : files.decision directory request wallet marked = .ok (r, d)) :
    ∃ documents, r.decide documents marked = .ok d ∧
      (files.resolve directory request wallet marked form).output
        = files.notice directory wallet form ++ (r.verdict documents marked form).output ∧
      (files.resolve directory request wallet marked form).stop = (r.verdict documents marked form).stop := by
  obtain ⟨hr, documents, hdocuments, hd⟩ := decision_eq_ok_iff.1 h
  refine ⟨documents, hd, ?_⟩
  unfold resolve
  unfold Files.documents at hdocuments
  unfold notice
  rw [hr]
  cases hpath : files.walletPath? wallet directory with
  | none =>
    simp only [hpath, Except.ok.injEq] at hdocuments
    subst hdocuments
    simp [Outcome.logged]
  | some path =>
    simp only [hpath] at hdocuments
    simp [hdocuments, Outcome.logged, Outcome.printed]

end Files

/-! ### Outcomes -/

namespace Outcome

variable {o : Outcome}

theorem status_eq_zero_iff : o.status = 0 ↔ o.stop = none := by
  cases h : o.stop <;> simp [status, h]

/-- Only a line that cannot be printed ends an outcome early. -/
theorem uptoPrintable_of_stop_ne (h : o.uptoPrintable.stop ≠ some .unprintable) : o.uptoPrintable = o := by
  unfold uptoPrintable at h ⊢
  split
  · rfl
  · rename_i hall
    rw [if_neg hall] at h
    exact absurd rfl h

theorem status_of_stop {s : Stop} (h : o.stop = some s) : o.uptoPrintable.status = 1 := by
  unfold uptoPrintable
  split <;> simp [status, h]

end Outcome

/-! ### Runs with a decision -/

namespace Files

variable {files : Files} {directory request : Path} {wallet : Option Path} {marked : List String}
  {r : Request} {d : Decision}

theorem notice_json : files.notice directory wallet .json = [] := by
  unfold notice
  split
  · rfl
  · split <;> rfl

theorem resolve_json (h : files.decision directory request wallet marked = .ok (r, d)) {s : String}
    (hs : d.resolution.json = .ok s) :
    (files.resolve directory request wallet marked .json).output = [Line.ofText s] ∧
      (files.resolve directory request wallet marked .json).stop
        = if d.resolution.isSatisfied then none else some .unsatisfied := by
  obtain ⟨documents, hd, hout, hstop⟩ := resolve_of_decision .json h
  rw [hout, hstop, notice_json]
  simp [Request.verdict, hd, Decision.lines, hs, Except.map]

theorem resolve_unwritable (h : files.decision directory request wallet marked = .ok (r, d)) {why : Unwritable}
    (hs : d.resolution.json = .error why) :
    (files.resolve directory request wallet marked .json).output = [] ∧
      (files.resolve directory request wallet marked .json).stop = some (.unwritable why) := by
  obtain ⟨documents, hd, hout, hstop⟩ := resolve_of_decision .json h
  rw [hout, hstop, notice_json]
  simp [Request.verdict, hd, Decision.lines, hs, Except.map]

theorem resolve_table (h : files.decision directory request wallet marked = .ok (r, d)) :
    (files.resolve directory request wallet marked .table).output
        = files.notice directory wallet .table
          ++ [[.dim ("Available: " ++ idList "none" d.available : String)], []] ++ d.table r.catalogue ∧
      (files.resolve directory request wallet marked .table).stop
        = if d.resolution.isSatisfied then none else some .unsatisfied := by
  obtain ⟨documents, hd, hout, hstop⟩ := resolve_of_decision .table h
  rw [hout, hstop]
  simp [Request.verdict, hd, Decision.lines]

/-- A run fails before it has a decision, or not at all. -/
theorem stop_eq_failure_iff {form : OutputForm} {f : Failure} :
    (files.resolve directory request wallet marked form).uptoPrintable.stop = some (.failure f) ↔
      files.decision directory request wallet marked = .error f := by
  cases h : files.decision directory request wallet marked with
  | error f' =>
    rw [uptoPrintable_resolve_of_error form h, (resolve_of_error form h).1]
    simp
  | ok decided =>
    obtain ⟨r, d⟩ := decided
    obtain ⟨documents, hd, -, hstop⟩ := resolve_of_decision form h
    refine iff_of_false (fun hfailure => ?_) (by simp)
    rw [Outcome.uptoPrintable_of_stop_ne (by simp [hfailure]), hstop, Request.verdict, hd] at hfailure
    dsimp only at hfailure
    split at hfailure
    · simp at hfailure
    · cases hs : d.resolution.isSatisfied <;> simp [hs] at hfailure

theorem uptoPrintable_resolve_json (h : files.decision directory request wallet marked = .ok (r, d)) :
    (files.resolve directory request wallet marked .json).uptoPrintable
      = files.resolve directory request wallet marked .json := by
  apply Outcome.uptoPrintable_of_all
  cases hs : d.resolution.json with
  | error why =>
    rw [(resolve_unwritable h hs).1]
    rfl
  | ok s =>
    rw [(resolve_json h hs).1]
    simp [Line.isPrintable, Line.ofText, Span.plain]

theorem uptoPrintable_resolve_table (h : files.decision directory request wallet marked = .ok (r, d))
    (hformats : ∀ q ∈ r.catalogue.entries, q.format.isPrintable = true) :
    (files.resolve directory request wallet marked .table).uptoPrintable
      = files.resolve directory request wallet marked .table := by
  apply Outcome.uptoPrintable_of_all
  rw [(resolve_table h).1, List.all_append, List.all_append, isPrintable_notice,
    Decision.isPrintable_table_iff.2 hformats]
  simp [Line.isPrintable, Span.dim]

theorem stop_of_unprintable (h : files.decision directory request wallet marked = .ok (r, d)) {q : CredentialQuery}
    (hq : q ∈ r.catalogue.entries) (hformat : q.format.isPrintable = false) :
    (files.resolve directory request wallet marked .table).uptoPrintable.stop = some .unprintable := by
  have hall : ¬ (files.resolve directory request wallet marked .table).output.all Line.isPrintable = true := by
    rw [(resolve_table h).1, List.all_append, Bool.and_eq_true, Decision.isPrintable_table_iff]
    intro hprintable
    rw [hprintable.2 q hq] at hformat
    exact absurd hformat (by decide)
  rw [Outcome.uptoPrintable, if_neg hall]

theorem entries_ne_nil (h : files.loadRequest request = .ok r) : r.catalogue.entries ≠ [] := by
  obtain ⟨v, -, hv⟩ := bind_eq_ok_iff.1 h
  exact Request.entries_ne_nil (mapError_eq_ok_iff.1 hv)

end Files

/-! ### Files in memory -/

/-- Files with these texts and no others. -/
def Files.ofTexts (texts : List (Path × String)) : Files := fun path =>
  match texts.lookup path with
  | some s => .ok s.toUTF8
  | none => .error .missing

theorem fromUTF8?_toUTF8 (s : String) : String.fromUTF8? s.toUTF8 = some s := by
  unfold String.fromUTF8?
  rw [dif_pos (show s.toUTF8.IsValidUTF8 from s.isValidUTF8)]
  rfl

/-- A text that is read as a value is loaded as it. -/
theorem Files.loadValue_ofTexts {texts : List (Path × String)} {path : Path} {s : String} {v : Value}
    (hs : texts.lookup path = some s) (hv : Value.ofYaml (Text.unifyLineEnds s.toList) = .ok v) :
    (Files.ofTexts texts).loadValue path = .ok v := by
  have hpath : Files.ofTexts texts path = .ok s.toUTF8 := by
    rw [Files.ofTexts, hs]
  rw [Files.loadValue, hpath]
  simp only [fromUTF8?_toUTF8, hv]
  rfl

theorem Files.loadRequest_ofTexts {texts : List (Path × String)} {path : Path} {s : String} {v : Value} {r : Request}
    (hs : texts.lookup path = some s) (hv : Value.ofYaml (Text.unifyLineEnds s.toList) = .ok v)
    (hr : Request.ofValue v = .ok r) : (Files.ofTexts texts).loadRequest path = .ok r := by
  rw [loadRequest, loadValue_ofTexts hs hv]
  exact mapError_eq_ok_iff.2 hr

theorem Files.loadWallet_ofTexts {texts : List (Path × String)} {path : Path} {s : String} {v : Value} {wallet : Wallet}
    (hs : texts.lookup path = some s) (hv : Value.ofYaml (Text.unifyLineEnds s.toList) = .ok v)
    (hw : Wallet.ofValue v = .ok wallet) : (Files.ofTexts texts).loadWallet path = .ok wallet := by
  rw [loadWallet, loadValue_ofTexts hs hv]
  exact mapError_eq_ok_iff.2 hw

end Disclosure
