import Disclosure.Proofs.FirstPlaces
import Disclosure.Proofs.Rejection
import Disclosure.Proofs.Resolved

/-!
# Disclosure.Proofs.StepByStep — resolving a request one action after another

`resolve` gives a decision as a whole.  Here it is found by a run that looks at the references first, then looks up one
chosen id after another in the map of the catalogue, and writes its log records as it goes.  Such a run can end early in
two ways: the request is refused, or an id is not in the map.  The second never happens, since every id that an option
names was looked at before.

* `Matching.check_eq_report`: looking at the references finds the first unknown id.
* `Matching.gather_eq`: no look-up fails among ids of the catalogue.
* `Matching.comesTo_whole`, `Matching.comesTo_sets`: what the two kinds of resolution come to, step by step.
* `Matching.run_selection`: the run ends as `resolve` says, with its log.
* `matching_total`: when a request is refused, for which reference, and what is certain otherwise.
-/

namespace Disclosure

/-- What ends a run early. -/
inductive Halt where
  /-- The request is refused. -/
  | refused (e : RequestError)
  /-- An id that was chosen is not in the map of the catalogue. -/
  | lost (id : String)

/-- Runs that write log records and may end early. -/
abbrev Matching := EStateM Halt (List LogRecord)

namespace Matching

/-! ### Actions -/

/-- Writes the record of an event. -/
def tell (e : Event) : Matching Unit := modify (fun log => log ++ [e.record])

/-- Acts on one item of a list after another, from number `i` on. -/
def each {α : Type} (act : Nat → α → Matching Unit) : Nat → List α → Matching Unit
  | _, [] => pure ()
  | i, a :: rest => do
    act i a
    each act (i + 1) rest

/-- Looks at the ids of option `j` of set `i`; the first one that the catalogue does not have is refused. -/
def checkIds (c : Catalogue) (i j : Nat) : List String → Matching Unit
  | [] => pure ()
  | id :: rest =>
    if id ∈ c.ids then checkIds c i j rest else throw (.refused (.unknownReference ⟨i, j, id⟩))

/-- Looks at every id that an option names: by set, then option, then position. -/
def check (c : Catalogue) : Grouping → Matching Unit
  | none => pure ()
  | some sets => each (fun i s => each (fun j o => checkIds c i j o.ids) 0 s.options) 0 sets

/-- Looks an id up in a map that should have it. -/
def look (m : Selection) (id : String) : Matching CredentialQuery :=
  match m.get? id with
  | some q => pure q
  | none => throw (.lost id)

/-- Selects the queries that stand in the map under the ids, one after another. -/
def gather (m : Selection) : Selection → List String → Matching Selection
  | selected, [] => pure selected
  | selected, id :: rest => do
    let q ← look m id
    gather m (selected.put id q) rest

/-- Without grouping: the whole map when every id is available, else nothing. -/
def whole (m : Selection) (available : String → Bool) : Matching Selection :=
  if m.isEmpty then pure ∅
  else match m.keys.filter (fun id => !available id) with
    | [] => pure m
    | missing => do
      tell (.missing missing)
      pure ∅

/-- With a grouping: the sets from number `index` on, with `selected` chosen by the sets before them. -/
def sets (m : Selection) (available : String → Bool) : Nat → Selection → List CredentialSet → Matching Selection
  | _, selected, [] => pure selected
  | index, selected, s :: rest =>
    match s.choice? available with
    | some option => do
      tell (.chosen index option)
      let selected ← gather m selected option.ids
      sets m available (index + 1) selected rest
    | none =>
      if s.required then do
        tell (.refused index)
        pure ∅
      else do
        tell (.skipped index)
        sets m available (index + 1) selected rest

/-- The selection for a catalogue and a grouping: the references are looked at before anything else. -/
def selection (c : Catalogue) (g : Grouping) (available : String → Bool) : Matching Selection := do
  check c g
  match g with
  | none => whole c.toMap available
  | some ss => sets c.toMap available 0 ∅ ss

/-! ### Looking at the references -/

variable {c : Catalogue} {available : String → Bool} {log : List LogRecord}

/-- Refuses a reference that was found, and does nothing else. -/
def report : Option Reference → Matching Unit
  | none => pure ()
  | some r => throw (.refused (.unknownReference r))

theorem report_or (a b : Option Reference) : (do report a; report b) = report (a.or b) := by
  cases a <;> rfl

theorem checkIds_eq_report (i j : Nat) (ids : List String) : checkIds c i j ids =
    report ((ids.map (fun id => (⟨i, j, id⟩ : Reference))).find? (fun r => !c.ids.contains r.id)) := by
  induction ids with
  | nil => rfl
  | cons id rest ih =>
    by_cases h : id ∈ c.ids
    · simp [checkIds, h, ih]
    · simp [checkIds, h, report]

/-- When each action reports what is found in its own list, all actions report what is found in the joined list. -/
theorem each_eq_report {α : Type} {act : Nat → α → Matching Unit} {f : α × Nat → List Reference}
    {p : Reference → Bool} (h : ∀ i a, act i a = report ((f (a, i)).find? p)) (i : Nat) (as : List α) :
    each act i as = report (((as.zipIdx i).flatMap f).find? p) := by
  induction as generalizing i with
  | nil => rfl
  | cons a rest ih =>
    rw [each, h, ih, report_or, List.zipIdx_cons, List.flatMap_cons, List.find?_append]

/-- Looking at the references finds the first one to an id that the catalogue does not have. -/
theorem check_eq_report (g : Grouping) : check c g = report (firstUnknown? c g) := by
  cases g with
  | none => rfl
  | some ss =>
    refine each_eq_report (fun i s => ?_) 0 ss
    exact each_eq_report (fun j o => checkIds_eq_report i j o.ids) 0 s.options

/-! ### Looking up what was chosen -/

theorem look_toMap {id : String} {q : CredentialQuery} (h : c.get? id = some q) : look c.toMap id = pure q := by
  have hid : id ∈ c.ids := by
    obtain ⟨hq, rfl⟩ := Catalogue.get?_eq_some_iff.1 h
    exact List.mem_map_of_mem hq
  rw [look, Catalogue.toMap_eq_addAll, Selection.get?_addAll (fun _ hid => hid), if_pos hid, h]

/-- No look-up fails among ids of the catalogue. -/
theorem gather_eq {ids : List String} (h : ∀ id ∈ ids, id ∈ c.ids) (selected : Selection) :
    gather c.toMap selected ids = pure (Selection.addAll c selected ids) := by
  induction ids generalizing selected with
  | nil => rfl
  | cons id rest ih =>
    obtain ⟨q, hq⟩ := Catalogue.exists_get?_of_mem_ids (h id (by simp))
    have hrest : ∀ i ∈ rest, i ∈ c.ids := fun i hi => h i (by simp [hi])
    rw [gather, look_toMap hq, pure_bind, ih hrest, Selection.addAll_cons hq]

/-- A run comes to a resolution: it ends with its selection and adds its records to the log. -/
def ComesTo (x : Matching Selection) (r : Resolution) : Prop :=
  ∀ log, x.run log = .ok r.selection (log ++ r.log)

theorem comesTo_pure (selected : Selection) : ComesTo (pure selected) ⟨selected, []⟩ := by
  intro log
  simp [Resolution.log]

theorem comesTo_refusal (e : Event) : ComesTo (do tell e; pure ∅) (.refusal e) := fun _ => rfl

/-- What is told before a run stands before what the run tells. -/
theorem ComesTo.after {x : Matching Selection} {r : Resolution} (h : ComesTo x r) (e : Event) :
    ComesTo (do tell e; x) (r.after e) := by
  intro log
  have htell : (do tell e; x : Matching Selection).run log = x.run (log ++ [e.record]) := rfl
  rw [htell, h]
  simp [Resolution.log, Resolution.after]

/-- Without grouping the map of the catalogue is what `resolveAll` goes by. -/
theorem comesTo_whole : ComesTo (whole c.toMap available) (resolveAll c available) := by
  have hkeys : c.toMap.keys = c.ids := by
    rw [OrderedMap.keys, Catalogue.entries_toMap, List.map_map]
    rfl
  unfold whole resolveAll
  rw [hkeys]
  split
  · rename_i hempty
    have hmap : c.toMap = ∅ := OrderedMap.ext (List.isEmpty_iff.1 hempty)
    have hids : c.ids = [] := by rw [← hkeys, hmap, OrderedMap.keys_empty]
    rw [hids, hmap]
    exact comesTo_pure ∅
  · cases c.ids.filter (fun id => !available id) with
    | nil => exact comesTo_pure c.toMap
    | cons id rest => exact comesTo_refusal _

/-- With a grouping whose ids are known, the run does what `resolveSets` does, set by set. -/
theorem comesTo_sets {ss : List CredentialSet} (h : c.Covers ss) (index : Nat) (selected : Selection) :
    ComesTo (sets c.toMap available index selected ss) (resolveSets c available index selected ss) := by
  induction ss generalizing index selected with
  | nil => exact comesTo_pure selected
  | cons s rest ih =>
    have hrest : c.Covers rest := fun t ht => h t (by simp [ht])
    unfold sets resolveSets
    cases hchoice : s.choice? available with
    | some option =>
      have hids : ∀ id ∈ option.ids, id ∈ c.ids := h s (by simp) option (CredentialSet.choice?_spec hchoice).1
      dsimp only
      rw [gather_eq hids, pure_bind]
      exact (ih hrest _ _).after _
    | none =>
      dsimp only
      split
      · exact comesTo_refusal _
      · exact (ih hrest _ _).after _

/-- **The run ends as `resolve` says.**  A request that is refused is refused before anything is told; otherwise every
look-up succeeds, and the run tells what the resolution lists. -/
theorem run_selection (g : Grouping) : (selection c g available).run log =
    match Disclosure.resolve c g available with
    | .error e => .error (.refused e) log
    | .ok r => .ok r.selection (log ++ r.log) := by
  unfold selection
  rw [check_eq_report, Disclosure.resolve]
  cases hunknown : firstUnknown? c g with
  | some r => rfl
  | none =>
    rw [report, pure_bind]
    cases g with
    | none => exact comesTo_whole log
    | some ss => exact comesTo_sets (firstUnknown?_eq_none_iff.1 hunknown) 0 ∅ log

end Matching

/-! ### Refusals -/

/-- Some option names an id that the catalogue does not have. -/
def Catalogue.Stray (c : Catalogue) (g : Grouping) : Prop :=
  ∃ sets, g = some sets ∧ ∃ s ∈ sets, ∃ o ∈ s.options, ∃ id ∈ o.ids, id ∉ c.ids

/-- The first such id, by set, option and position, stands at place `k` of option `j` of set `i`. -/
def Catalogue.FirstStray (c : Catalogue) (g : Grouping) (i j k : Nat) (id : String) : Prop :=
  ∃ sets, g = some sets ∧ NamesAt sets i j k id ∧ id ∉ c.ids ∧
    ∀ i' j' k' id', Grammar.Earlier i' j' k' i j k → NamesAt sets i' j' k' id' → id' ∈ c.ids

variable {c : Catalogue} {g : Grouping} {available : String → Bool} {e : RequestError}

theorem resolve_eq_error_iff_ofParts : resolve c g available = .error e ↔ Request.ofParts c g = .error e := by
  rw [Request.ofParts_eq_error_iff, resolve]
  cases firstUnknown? c g <;> simp [eq_comm]

theorem resolve_eq_error_iff : resolve c g available = .error e ↔
    ∃ i j k id, c.FirstStray g i j k id ∧ e = .unknownReference ⟨i, j, id⟩ := by
  have hfirst : resolve c g available = .error e ↔ ∃ r, firstUnknown? c g = some r ∧ e = .unknownReference r := by
    rw [resolve_eq_error_iff_ofParts, Request.ofParts_eq_error_iff]
  rw [hfirst]
  cases g with
  | none => simp [firstUnknown?, Catalogue.FirstStray]
  | some sets =>
    simp only [firstUnknown?_eq_some_iff, Catalogue.FirstStray, Option.some.injEq, exists_eq_left']
    constructor
    · rintro ⟨⟨i, j, id⟩, ⟨k, hk⟩, rfl⟩
      exact ⟨i, j, k, id, hk, rfl⟩
    · rintro ⟨i, j, k, id, hk, rfl⟩
      exact ⟨⟨i, j, id⟩, ⟨k, hk⟩, rfl⟩

theorem exists_error_iff_stray : (∃ e, resolve c g available = .error e) ↔ c.Stray g := by
  rw [exists_resolve_eq_error_iff]
  simp only [Catalogue.Stray, Catalogue.Covers, Option.mem_def, not_forall, exists_prop]

/-- **Looking at the references makes resolving total.**  A request is refused exactly when some option of some set
names an id that the catalogue does not have, whatever is available; the cause is the first such id by set, option and
position, and making a request of the same parts is refused for the same cause.  A run that is refused tells nothing.
Every other run comes to the end that `resolve` gives, and no look-up fails in it; so does every run of a request, for
there is no request with such an option. -/
theorem matching_total (c : Catalogue) (g : Grouping) (available : String → Bool) (log : List LogRecord) :
    ((∃ e, resolve c g available = .error e) ↔ c.Stray g) ∧
    (∀ e, resolve c g available = .error e ↔
      ∃ i j k id, c.FirstStray g i j k id ∧ e = .unknownReference ⟨i, j, id⟩) ∧
    (∀ i j id, (RequestError.unknownReference ⟨i, j, id⟩).message =
      Text.ofString ("credential_sets[" ++ Nat.repr i ++ "].options[" ++ Nat.repr j ++
        "] references unknown credential query id '" ++ id ++ "'")) ∧
    (∀ e, resolve c g available = .error e ↔ Request.ofParts c g = .error e) ∧
    (∀ e, resolve c g available = .error e →
      (Matching.selection c g available).run log = .error (.refused e) log) ∧
    (¬ c.Stray g → ∃ r, resolve c g available = .ok r ∧
      (Matching.selection c g available).run log = .ok r.selection (log ++ r.log)) ∧
    (∀ r : Request, (Matching.selection r.catalogue r.grouping available).run log =
      .ok (r.resolve available).selection (log ++ (r.resolve available).log)) := by
  refine ⟨exists_error_iff_stray, fun e => resolve_eq_error_iff, message_unknownReference,
    fun e => resolve_eq_error_iff_ofParts, ?_, ?_, ?_⟩
  · intro e he
    rw [Matching.run_selection, he]
  · intro hknown
    cases hr : resolve c g available with
    | error e => exact absurd (exists_error_iff_stray.1 ⟨e, hr⟩) hknown
    | ok r => exact ⟨r, rfl, by rw [Matching.run_selection, hr]⟩
  · intro r
    rw [Matching.run_selection, resolve_eq_ok]

/-- A set with one option, which names the given ids. -/
def onlyOption (id : String) (others : List String) (required : Bool) : CredentialSet :=
  ⟨[⟨id :: others, List.cons_ne_nil id others⟩], by simp, required, .null⟩

/-- A required set that is satisfied, and an optional one that names an unknown id. -/
def strayGrouping : Grouping := some [onlyOption "b" [] true, onlyOption "ghost" [] false]

/-- The unknown id is refused although the first set is satisfied; without it the query is selected. -/
theorem matching_total_stray :
    let available : String → Bool := fun id => id = "b"
    let known : Grouping := some [⟨[⟨["b"], nofun⟩], by simp, true, .null⟩]
    resolve threeQueries strayGrouping available = .error (.unknownReference ⟨1, 0, "ghost"⟩) ∧
      (Matching.selection threeQueries strayGrouping available).run []
        = .error (.refused (.unknownReference ⟨1, 0, "ghost"⟩)) [] ∧
      ¬ threeQueries.Stray known ∧
      ∃ r, resolve threeQueries known available = .ok r ∧ r.selection.keys = ["b"] ∧
        (Matching.selection threeQueries known available).run [] = .ok r.selection r.log := by
  intro available known
  have hrefused : resolve threeQueries strayGrouping available = .error (.unknownReference ⟨1, 0, "ghost"⟩) := rfl
  have hknown : ¬ threeQueries.Stray known := by
    simp [Catalogue.Stray, known, threeQueries, Catalogue.ids]
  obtain ⟨-, -, -, -, hrun, -, -⟩ := matching_total threeQueries strayGrouping available []
  obtain ⟨-, -, -, -, -, htotal, -⟩ := matching_total threeQueries known available []
  obtain ⟨r, hr, hlog⟩ := htotal hknown
  refine ⟨hrefused, hrun _ hrefused, hknown, r, hr, ?_, hlog⟩
  cases hr
  rfl

end Disclosure
