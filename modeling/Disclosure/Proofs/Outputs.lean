import Disclosure.Presentation
import Disclosure.Proofs.JsonRequest
import Disclosure.Proofs.JsonWriter
import Disclosure.Proofs.Runs
import Disclosure.Request.Writer

/-!
# Disclosure.Proofs.Outputs — the two forms of a decision agree

A decision is shown as a table or as JSON.  Both are made from the same decision in different ways: the table goes
through the catalogue and asks for each query whether it is selected, JSON goes through what is selected.  Every depth
of nesting has JSON here, as far as a run has room for it: see `Disclosure.Value`.

* `Decision.exists_json`: a selection of JSON data has a JSON document.
* `outputs_agree`: document, table and exit status say the same.
* `dated_request_unwritable`: a selected query with a date has no document, although the request is satisfied.
-/

namespace Disclosure

/-! ### On the screen -/

namespace Presentation

variable (look : Presentation) {o : Outcome}

theorem stdout_of_nil (h : o.output = []) : look.stdout o = "" := by
  unfold stdout printed
  rw [h]
  cases look.terminal <;> simp [Line.renderAll, Text.shown, Text.withoutControls, Text.dropControls]

/-- A tame line is printed as it is, with and without a terminal. -/
theorem stdout_of_tame {s : String} (h : o.output = [Line.ofText s]) (hs : Json.Tame s.toList) :
    look.stdout o = s ++ "\n" := by
  have hrender : ∀ colour, Line.renderAll colour [Line.ofText s] = Text.ofString (s ++ "\n") := by
    intro colour
    cases colour <;> simp [Line.renderAll, Line.render, Line.ofText, Span.plain, Span.render, Style.code?,
      Text.ofString_append]
  have hescape : CodePoint.char '\x1b' ∉ Text.ofString (s ++ "\n") := by
    simpa [Text.ofString, Json.Tame] using hs
  unfold stdout printed
  rw [h, hrender, Text.withoutControls_of_noEscape hescape, ite_self, Text.shown_ofString]

end Presentation

/-! ### What a decision prints -/

namespace Decision

variable {d : Decision}

/-- Everything that the decision selects has JSON, whatever its depth. -/
def HoldsJson (d : Decision) : Prop := ∀ q ∈ d.resolution.selection.values, q.toValue.IsJson

/-- The selected queries, as the fields of an object. -/
def credentials (d : Decision) : Fields := d.resolution.selection.entries.map (fun e => (.text e.1, e.2.toValue))

theorem exists_json (h : d.HoldsJson) :
    ∃ s, d.resolution.json = .ok s ∧
      Json.Spells (.object [(.text "satisfied", .bool d.resolution.isSatisfied),
        (.text "credentials", .object d.credentials)]) s.toList := by
  have hfields : Value.FieldsJson d.credentials := by
    rw [Value.fieldsJson_iff]
    intro f hf
    obtain ⟨e, he, rfl⟩ := List.mem_map.1 hf
    exact ⟨⟨_, rfl⟩, h e.2 (List.mem_map_of_mem he)⟩
  have hvalue : d.resolution.toValue.IsJson := ⟨⟨_, rfl⟩, trivial, ⟨_, rfl⟩, hfields, trivial⟩
  exact Value.exists_json_of_isJson hvalue

theorem isSatisfied_iff_credentials : d.resolution.isSatisfied = true ↔ d.credentials ≠ [] := by
  simp [Resolution.isSatisfied, OrderedMap.isEmpty, credentials]

end Decision

/-! ### Agreement -/

namespace Decision

variable {d : Decision}

/-- One JSON document that says whether the request is satisfied and holds the selected queries by id.  It agrees with
the exit status. -/
def ShownAsJson (d : Decision) (stdout : String) (status : Nat) : Prop :=
  ∃ satisfied,
    Json.Document (.object [(.text "satisfied", .bool satisfied), (.text "credentials", .object d.credentials)])
      stdout.toList ∧
    (satisfied = true ↔ d.credentials ≠ []) ∧ (satisfied = true ↔ status = 0)

/-- The available ids and the table, after some lines.  The table agrees with the exit status. -/
def ShownAsTable (d : Decision) (c : Catalogue) (before lines : List Text) (status : Nat) : Prop :=
  ∃ rows, Shows rows d c ∧
    lines = before ++ [Text.ofString ("Available: " ++ idList "none" d.available), []]
      ++ tableText (Columns.ofCatalogue c) rows ∧
    (d.credentials ≠ [] ↔ status = 0)

theorem status_eq_zero_iff {o : Outcome} (h : o.stop = if d.resolution.isSatisfied then none else some .unsatisfied) :
    o.status = 0 ↔ d.resolution.isSatisfied = true := by
  rw [Outcome.status_eq_zero_iff, h]
  cases d.resolution.isSatisfied <;> simp

end Decision

/-- The request of a JSON file holds JSON data, whatever is selected of it. -/
theorem Files.holdsJson_of_isJson {files : Files} {directory request : Path} {wallet : Option Path}
    {marked : List String} {r : Request} {d : Decision} (h : files.decision directory request wallet marked = .ok (r, d)) {v : Value}
    (hv : files.loadValue request = .ok v) (hjson : v.IsJson) : d.HoldsJson := by
  obtain ⟨hr, documents, -, hd⟩ := Files.decision_eq_ok_iff.1 h
  rw [Files.loadRequest, hv] at hr
  have hof : Request.ofValue v = .ok r := mapError_eq_ok_iff.1 hr
  intro q hq
  obtain ⟨e, he, rfl⟩ := List.mem_map.1 hq
  obtain ⟨-, q, hget, hmem, -⟩ := Request.mem_selection_of_decide hd (List.mem_map_of_mem he)
  rw [OrderedMap.get?_of_mem_entries he, Option.some.injEq] at hget
  exact Request.isJson_of_mem_entries hjson hof (hget ▸ hmem)

section Agreement

variable {files : Files} {directory request : Path} {wallet : Option Path} {marked : List String}
  {r : Request} {d : Decision}

theorem shownAsJson_of_decision (h : files.decision directory request wallet marked = .ok (r, d)) (hd : d.HoldsJson)
    (look : Presentation) :
    d.ShownAsJson (look.stdout (files.resolve directory request wallet marked .json))
      (files.resolve directory request wallet marked .json).status := by
  obtain ⟨s, hs, hspells⟩ := d.exists_json hd
  obtain ⟨hout, hstop⟩ := Files.resolve_json h hs
  refine ⟨d.resolution.isSatisfied, ?_, d.isSatisfied_iff_credentials, (d.status_eq_zero_iff hstop).symm⟩
  rw [look.stdout_of_tame hout hspells.tame]
  refine ⟨[], s.toList, ['\n'], by simp [Json.Blanks], hspells, by simp [Json.Blanks], ?_⟩
  simp

theorem shownAsTable_of_decision (h : files.decision directory request wallet marked = .ok (r, d)) :
    d.ShownAsTable r.catalogue ((files.notice directory wallet .table).map (Line.render false))
      ((files.resolve directory request wallet marked .table).output.map (Line.render false))
      (files.resolve directory request wallet marked .table).status := by
  obtain ⟨hout, hstop⟩ := Files.resolve_table h
  obtain ⟨-, documents, -, hd⟩ := Files.decision_eq_ok_iff.1 h
  have hselected : ∀ id ∈ d.resolution.selection.keys, id ∈ d.available ∧ id ∈ r.catalogue.ids := by
    intro id hid
    obtain ⟨havailable, q, -, hq, rfl⟩ := Request.mem_selection_of_decide hd hid
    exact ⟨havailable, List.mem_map_of_mem hq⟩
  refine ⟨d.rows r.catalogue, Decision.shows_rows hselected, ?_, ?_⟩
  · rw [hout, List.map_append, List.map_append, Decision.render_table (fun id hid => (hselected id hid).2)]
    simp [Line.render_false, Span.dim]
  · rw [d.status_eq_zero_iff hstop, d.isSatisfied_iff_credentials]

/-- **The two forms of a decision agree.**  Without a decision nothing is printed as JSON, and both runs fail.  With
one, the JSON document, the table and the exit status say the same, as far as the selected queries have JSON and the
formats can be printed; else that run ends where it has to write them. -/
theorem outputs_agree (files : Files) (directory request : Path) (wallet : Option Path) (marked : List String)
    (look : Presentation) :
    let json := (files.resolve directory request wallet marked .json).uptoPrintable
    let table := (files.resolve directory request wallet marked .table).uptoPrintable
    (∀ f, files.decision directory request wallet marked = .error f →
      look.stdout json = "" ∧ json.status = 1 ∧ table.status = 1) ∧
    ∀ r d, files.decision directory request wallet marked = .ok (r, d) →
      r.catalogue.entries ≠ [] ∧ d.resolution = r.resolve (fun id => d.available.contains id) ∧
      (∀ v, files.loadValue request = .ok v → v.IsJson → d.HoldsJson) ∧
      (d.HoldsJson → d.ShownAsJson (look.stdout json) json.status) ∧
      ((∀ q ∈ r.catalogue.entries, q.format.isPrintable = true) →
        d.ShownAsTable r.catalogue ((files.notice directory wallet .table).map (Line.render false))
          (table.output.map (Line.render false)) table.status) ∧
      (d.HoldsJson → (∀ q ∈ r.catalogue.entries, q.format.isPrintable = true) → table.status = json.status) ∧
      (∀ why, d.resolution.json = .error why → look.stdout json = "" ∧ json.stop = some (.unwritable why)) ∧
      ((∃ q ∈ r.catalogue.entries, q.format.isPrintable = false) → table.stop = some .unprintable) := by
  constructor
  · intro f hf
    obtain ⟨hjson, hlines⟩ := Files.resolve_of_error .json hf
    obtain ⟨htable, -⟩ := Files.resolve_of_error .table hf
    rw [Files.notice_json] at hlines
    have hnil := List.eq_nil_iff_forall_not_mem.2 (fun line hline => List.not_mem_nil (hlines line hline))
    refine ⟨?_, Outcome.status_of_stop hjson, Outcome.status_of_stop htable⟩
    rw [Files.uptoPrintable_resolve_of_error .json hf]
    exact look.stdout_of_nil hnil
  · intro r d h
    obtain ⟨hr, documents, -, hd⟩ := Files.decision_eq_ok_iff.1 h
    obtain ⟨answered, -, hdecision⟩ := Request.decide_eq_ok_iff.1 hd
    rw [Files.uptoPrintable_resolve_json h]
    refine ⟨Files.entries_ne_nil hr, by rw [hdecision], fun v => Files.holdsJson_of_isJson h,
      fun hjson => shownAsJson_of_decision h hjson look, ?_, ?_, ?_, ?_⟩
    · intro hformats
      rw [Files.uptoPrintable_resolve_table h hformats]
      exact shownAsTable_of_decision h
    · intro hjson hformats
      obtain ⟨s, hs, -⟩ := d.exists_json hjson
      rw [Files.uptoPrintable_resolve_table h hformats, Outcome.status, Outcome.status, (Files.resolve_table h).2,
        (Files.resolve_json h hs).2]
    · intro why hwhy
      obtain ⟨hout, hstop⟩ := Files.resolve_unwritable h hwhy
      exact ⟨look.stdout_of_nil hout, hstop⟩
    · rintro ⟨q, hq, hformat⟩
      exact Files.stop_of_unprintable h hq hformat

end Agreement

/-! ### Two requests -/

/-- The directory of the files; it has no wallet. -/
def homeDirectory : Path := ⟨"/", []⟩

/-- A request with one query, and its file. -/
def plainRequest : Request := ⟨⟨[{ id := "a", format := "f" }], by decide⟩, none, rfl⟩

def plainText : String := "credentials:\n- id: a\n  format: f\n"

/-- The same request with a date in the metadata of the query. -/
def datedRequest : Request :=
  ⟨⟨[{ id := "a", format := "f", metadata := [(.text "d", .scalar (.date ⟨2001, 1, 1⟩))] }], by decide⟩, none, rfl⟩

def datedText : String := "credentials:\n- id: a\n  format: f\n  meta: {d: 2001-01-01}\n"

def requestPath : Path := .ofText "r.yml"

theorem ofYaml_plainText : Value.ofYaml (Text.unifyLineEnds plainText.toList) = .ok plainRequest.toValue := by
  decide +kernel

theorem ofYaml_datedText : Value.ofYaml (Text.unifyLineEnds datedText.toList) = .ok datedRequest.toValue := by
  decide +kernel

/-- With one request and no wallet the marked ids decide. -/
theorem decision_of_text {s : String} {r : Request} (hv : Value.ofYaml (Text.unifyLineEnds s.toList) = .ok r.toValue)
    (hr : Request.ofValue r.toValue = .ok r) (hids : r.catalogue.available [] = .ok []) (marked : List String) :
    (Files.ofTexts [(requestPath, s)]).decision homeDirectory requestPath none marked
      = .ok (r, ⟨firstSeen marked, r.resolve (fun id => (firstSeen marked).contains id)⟩) := by
  have hs : [(requestPath, s)].lookup requestPath = some s := by simp
  exact Files.decision_eq_ok_iff.2 ⟨Files.loadRequest_ofTexts hs hv hr, [], rfl, Request.decide_eq_ok hids⟩

theorem decision_plain : (Files.ofTexts [(requestPath, plainText)]).decision homeDirectory requestPath none ["a"]
    = .ok (plainRequest, ⟨["a"], plainRequest.resolve (fun id => ["a"].contains id)⟩) :=
  decision_of_text ofYaml_plainText rfl rfl ["a"]

theorem decision_dated : (Files.ofTexts [(requestPath, datedText)]).decision homeDirectory requestPath none ["a"]
    = .ok (datedRequest, ⟨["a"], datedRequest.resolve (fun id => ["a"].contains id)⟩) :=
  decision_of_text ofYaml_datedText rfl rfl ["a"]

/-- The date of the query is the only reason against JSON. -/
theorem json_dated : (datedRequest.resolve (fun id => ["a"].contains id)).json = .error .noForm := by
  let metadata : Value := .object [(.text "d", .scalar (.date ⟨2001, 1, 1⟩))]
  let query : Value := .object [(.text "id", .text "a"), (.text "format", .text "f"), (.text "meta", metadata)]
  let selected : Value := .object [(.text "a", query)]
  have hvalue : (datedRequest.resolve (fun id => ["a"].contains id)).toValue
      = .object [(.text "satisfied", .bool true), (.text "credentials", selected)] := rfl
  have hmetadata : Value.jsonAt 3 [] metadata = .error .noForm :=
    Value.jsonAt_object_eq_noForm (by simp) (by simp [Value.jsonAt, Scalar.json]) (by simp [Value.jsonAt, Scalar.json])
  have hquery : Value.jsonAt 2 [] query = .error .noForm :=
    Value.jsonAt_object_eq_noForm (by simp) (by simp [Value.jsonAt, Scalar.json, hmetadata]) (by simp [hmetadata])
  have hselected : Value.jsonAt 1 [] selected = .error .noForm :=
    Value.jsonAt_object_eq_noForm (by simp) (by simp [hquery]) (by simp [hquery])
  rw [Resolution.json, hvalue]
  exact Value.jsonAt_object_eq_noForm (by simp) (by simp [Value.jsonAt, Scalar.json, hselected]) (by simp [hselected])

theorem holdsJson_plain : (Decision.mk ["a"] (plainRequest.resolve (fun id => ["a"].contains id))).HoldsJson := by
  intro q hq
  obtain rfl : q = { id := "a", format := "f" } := List.mem_singleton.1 hq
  exact ⟨⟨_, rfl⟩, trivial, ⟨_, rfl⟩, trivial, trivial⟩

/-- The marked query is selected: document, table and exit status say so. -/
theorem outputs_agree_marked :
    let files := Files.ofTexts [(requestPath, plainText)]
    ∃ d, files.decision homeDirectory requestPath none ["a"] = .ok (plainRequest, d) ∧ d.HoldsJson ∧
      d.credentials = [(.text "a", .object [(.text "id", .text "a"), (.text "format", .text "f")])] ∧
      ∀ look : Presentation,
        let json := (files.resolve homeDirectory requestPath none ["a"] .json).uptoPrintable
        let table := (files.resolve homeDirectory requestPath none ["a"] .table).uptoPrintable
        d.ShownAsJson (look.stdout json) json.status ∧ json.status = 0 ∧
          d.ShownAsTable plainRequest.catalogue [] (table.output.map (Line.render false)) table.status := by
  have hformats : ∀ q ∈ plainRequest.catalogue.entries, q.format.isPrintable = true := by decide
  refine ⟨_, decision_plain, holdsJson_plain, rfl, fun look => ?_⟩
  obtain ⟨-, hdecided⟩ :=
    outputs_agree (Files.ofTexts [(requestPath, plainText)]) homeDirectory requestPath none ["a"] look
  obtain ⟨-, -, -, hdocument, htable, -⟩ := hdecided _ _ decision_plain
  have hshown := hdocument holdsJson_plain
  have ⟨satisfied, _, hcredentials, hstatus⟩ := hshown
  exact ⟨hshown, hstatus.1 (hcredentials.2 (by decide)), htable hformats⟩

/-- The marked query is selected too, but its date has no JSON: nothing is printed, and the exit status says failure. -/
theorem dated_request_unwritable :
    let files := Files.ofTexts [(requestPath, datedText)]
    let json := (files.resolve homeDirectory requestPath none ["a"] .json).uptoPrintable
    let table := (files.resolve homeDirectory requestPath none ["a"] .table).uptoPrintable
    ∃ d, files.decision homeDirectory requestPath none ["a"] = .ok (datedRequest, d) ∧ d.credentials ≠ [] ∧
      json.output = [] ∧ json.stop = some (.unwritable .noForm) ∧ json.status = 1 ∧ table.status = 0 ∧
      ∀ look : Presentation, ¬ d.ShownAsJson (look.stdout json) json.status := by
  obtain ⟨hout, hstop⟩ := Files.resolve_unwritable decision_dated json_dated
  have hstatus := Outcome.status_of_stop hstop
  rw [Files.uptoPrintable_resolve_json decision_dated] at hstatus
  dsimp only
  rw [Files.uptoPrintable_resolve_json decision_dated]
  have hformats : ∀ q ∈ datedRequest.catalogue.entries, q.format.isPrintable = true := by decide
  refine ⟨_, decision_dated, by decide, hout, hstop, hstatus, ?_, ?_⟩
  · rw [Files.uptoPrintable_resolve_table decision_dated hformats]
    exact (Decision.status_eq_zero_iff (Files.resolve_table decision_dated).2).2 (by decide)
  · rintro look ⟨satisfied, -, hcredentials, hzero⟩
    have hsuccess := hzero.1 (hcredentials.2 (by decide))
    rw [hstatus] at hsuccess
    exact absurd hsuccess (by decide)

end Disclosure
