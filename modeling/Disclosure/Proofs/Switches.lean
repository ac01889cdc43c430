import Disclosure.Presentation
import Disclosure.Proofs.Colours
import Disclosure.Proofs.Outputs

/-!
# Disclosure.Proofs.Switches — how a run is shown, and what it does

A command line may ask for more detail, stdout may be a terminal or not, and colours may be refused.  None of this changes
what a command does: its outcome, with the exit status and the reason of a failure, is a function of the other words.  It
changes how the outcome is shown: which log records are, and where there are codes for colours.

* `Lead`: the words before the name of a command.
* `Invocation.ofArguments_of_lead`, `Invocation.exists_lead`: they say how much detail is shown, and nothing else.
* `Presentation.withoutControls_stdout`: what is printed, without its colours.
* `Presentation.records_of_one`: the records that are shown of those that are told.
* `presentation_harmless`: two ways to show a run.
-/

namespace Disclosure

/-! ### Words before the name of a command -/

/-- The letter `v` behind one minus sign, `k + 1` times. -/
def letters (k : Nat) : String := String.ofList ('-' :: List.replicate (k + 1) 'v')

/-- Words that may stand before the name of a command: they ask `n` times for more detail, and `--` may be the last. -/
inductive Lead : Nat → List String → Prop
  | nil : Lead 0 []
  | mark : Lead 0 ["--"]
  | long {n : Nat} {words : List String} : Lead n words → Lead (n + 1) ("--verbose" :: words)
  | short (k : Nat) {n : Nat} {words : List String} : Lead n words → Lead (n + (k + 1)) (letters k :: words)

namespace Word

theorem ofText_letters_zero : ofText (letters 0) = .option "-v" none := by decide

theorem ofText_letters_succ (k : Nat) :
    ofText (letters (k + 1)) = .option "-v" (some (String.ofList (List.replicate (k + 1) 'v'))) := by
  have hlist : (letters (k + 1)).toList = '-' :: 'v' :: 'v' :: List.replicate k 'v' := by
    simp [letters, List.replicate_succ]
  unfold ofText
  rw [hlist]
  simp [List.replicate_succ]

theorem ofText_eq_endOfOptions_iff {s : String} : ofText s = .endOfOptions ↔ s = "--" := by
  constructor
  · intro h
    unfold ofText at h
    split at h
    · rename_i hlist
      exact String.toList_inj.1 hlist
    all_goals grind
  · rintro rfl
    decide

theorem toList_of_ofText_letters {s : String} {value : Option String} (h : ofText s = .option "-v" value) :
    s.toList = '-' :: 'v' :: (value.map String.toList).getD [] := by
  unfold ofText at h
  split at h
  · simp at h
  · -- a long option begins with two minus signs
    have hname : ∀ long, "--" ++ String.ofList long ≠ "-v" := by
      intro long heq
      simpa using congrArg String.toList heq
    dsimp only at h
    split at h
    · exact absurd (Word.option.inj h).1 (hname _)
    · exact absurd (Word.option.inj h).1 (hname _)
  · rename_i c rest _ _ hlist
    obtain ⟨hname, rfl⟩ := Word.option.inj h
    have hletter : c = 'v' := by simpa using congrArg String.toList hname
    rw [hlist, hletter]
    cases rest <;> simp
  · simp at h

theorem eq_of_ofText_verbose {s : String} (h : ofText s = .option "--verbose" none) : s = "--verbose" := by
  unfold ofText at h
  split at h
  · simp at h
  · rename_i rest _ hlist
    dsimp only at h
    split at h
    · rename_i hdrop
      have hall : rest.takeWhile (· ≠ '=') = rest := by
        have happend := List.takeWhile_append_dropWhile (p := (· ≠ '=')) (l := rest)
        rwa [hdrop, List.append_nil] at happend
      have hname := congrArg String.toList (Word.option.inj h).1
      rw [hall] at hname
      have hrest : rest = "verbose".toList := by simpa using hname
      exact String.toList_inj.1 (by rw [hlist, hrest]; rfl)
    · simp at h
  · -- a short option has one letter
    have hname := congrArg (List.length ∘ String.toList) (Word.option.inj h).1
    simp at hname
  · simp at h

theorem ofText_of_verb {name : String} {verb : Verb} (h : Verb.ofName? name = some verb) : ofText name = .argument := by
  have hname : name = "resolve" ∨ name = "explain" := by
    simp only [Verb.ofName?, List.lookup_cons, List.lookup_nil] at h
    grind
  rcases hname with rfl | rfl <;> decide

end Word

namespace Invocation

variable {n count : Nat} {lead words : List String} {wanted : Bool} {name : String} {verb : Verb}

theorem programOptions_of_lead (h : Lead n lead) (hname : Word.ofText name = .argument) :
    programOptions count wanted (lead ++ name :: words) = .ok (count + n, wanted, name :: words) := by
  induction h generalizing count with
  | nil => simp [programOptions, hname]
  | mark =>
    have hmark : Word.ofText "--" = .endOfOptions := Word.ofText_eq_endOfOptions_iff.2 rfl
    simp [programOptions, hmark]
  | long _ ih =>
    have hlong : Word.ofText "--verbose" = .option "--verbose" none := by decide
    simp only [List.cons_append, programOptions, hlong, ih]
    rw [Nat.add_right_comm, Nat.add_assoc]
  | short k _ ih =>
    rw [List.cons_append]
    cases k with
    | zero =>
      simp only [programOptions, Word.ofText_letters_zero, ih]
      rw [Nat.add_right_comm, Nat.add_assoc]
    | succ k =>
      have hall : (String.ofList (List.replicate (k + 1) 'v')).toList.all (· == 'v') = true := by simp
      have hcount : count + 1 + (String.ofList (List.replicate (k + 1) 'v')).length = count + (k + 1 + 1) := by
        rw [String.length_ofList, List.length_replicate, Nat.add_assoc, Nat.add_comm 1]
      simp only [programOptions, Word.ofText_letters_succ, hall, if_true, ih, hcount]
      rw [Nat.add_assoc, Nat.add_comm _ (k + 1 + 1)]

/-- They say how much detail is shown, and nothing else. -/
theorem ofArguments_of_lead (h : Lead n lead) (hname : Verb.ofName? name = some verb) :
    ofArguments (lead ++ name :: words) = (Words.gather verb.options words {}).map (run n verb) := by
  have hoptions : programOptions 0 false (lead ++ name :: words) = .ok (0 + n, false, name :: words) :=
    programOptions_of_lead h (Word.ofText_of_verb hname)
  simp only [ofArguments, hoptions, bind, Except.bind, Nat.zero_add, Bool.false_eq_true, if_false, hname]
  cases Words.gather verb.options words {} <;> rfl

/-- The options that are read before a command, other than the one for the version, are such words. -/
theorem exists_lead_of_programOptions {line rest : List String}
    (h : programOptions count wanted line = .ok (n, false, rest)) :
    wanted = false ∧ ∃ k lead, Lead k lead ∧ n = count + k ∧ line = lead ++ rest := by
  induction line generalizing count wanted with
  | nil =>
    simp only [programOptions, Except.ok.injEq, Prod.mk.injEq] at h
    obtain ⟨rfl, hwanted, rfl⟩ := h
    exact ⟨hwanted, 0, [], .nil, rfl, rfl⟩
  | cons s later ih =>
    rw [programOptions] at h
    split at h
    · rename_i hs
      obtain ⟨rfl, hwanted, rfl⟩ := by simpa using h
      exact ⟨hwanted, 0, ["--"], .mark, rfl, by rw [Word.ofText_eq_endOfOptions_iff.1 hs]; rfl⟩
    · obtain ⟨rfl, hwanted, rfl⟩ := by simpa using h
      exact ⟨hwanted, 0, [], .nil, rfl, rfl⟩
    · exact absurd (ih h).1 (by decide)
    · rename_i hs
      obtain ⟨hwanted, k, lead, hlead, rfl, rfl⟩ := ih h
      exact ⟨hwanted, k + 1, _, .long hlead, by omega, by rw [Word.eq_of_ofText_verbose hs]; rfl⟩
    · rename_i hs
      obtain ⟨hwanted, k, lead, hlead, rfl, rfl⟩ := ih h
      have hletters : s = letters 0 := String.toList_inj.1 (Word.toList_of_ofText_letters hs)
      exact ⟨hwanted, k + (0 + 1), _, .short 0 hlead, by omega, by rw [hletters]; rfl⟩
    · rename_i more hs
      split at h
      · rename_i hall
        obtain ⟨hwanted, k, lead, hlead, rfl, rfl⟩ := ih h
        have hmore : more.toList = List.replicate more.length 'v' := by
          rw [← String.length_toList, List.eq_replicate_iff]
          simpa using hall
        have hletters : s = letters more.length := by
          apply String.toList_inj.1
          rw [Word.toList_of_ofText_letters hs, letters, String.toList_ofList, Option.map_some, Option.getD_some, hmore,
            List.replicate_succ]
        exact ⟨hwanted, k + (more.length + 1), _, .short more.length hlead, by omega, by rw [hletters]; rfl⟩
      · simp at h
    · simp at h
    · split at h <;> simp at h

/-- Every command line that is read as a command has such words before its name. -/
theorem exists_lead {line : List String} {w : Words} (h : ofArguments line = .ok (.run n verb w)) :
    ∃ lead name words, Lead n lead ∧ Verb.ofName? name = some verb ∧ line = lead ++ name :: words := by
  unfold ofArguments at h
  obtain ⟨⟨count, wanted, rest⟩, hoptions, h⟩ := bind_eq_ok_iff.1 h
  dsimp only at h
  split at h
  · simp [pure, Except.pure] at h
  · rename_i hwanted
    split at h
    · simp [throw, throwThe, MonadExceptOf.throw] at h
    · rename_i name words
      split at h
      · rename_i verb' hname
        obtain ⟨w', -, h⟩ := bind_eq_ok_iff.1 h
        obtain ⟨rfl, rfl, -⟩ := by simpa [pure, Except.pure] using h
        rw [Bool.not_eq_true] at hwanted
        subst hwanted
        obtain ⟨-, k, lead, hlead, hcount, rfl⟩ := exists_lead_of_programOptions hoptions
        rw [Nat.zero_add] at hcount
        exact ⟨lead, name, words, hcount ▸ hlead, hname, rfl⟩
      · obtain ⟨⟨_, again, _⟩, -, h⟩ := bind_eq_ok_iff.1 h
        dsimp only at h
        split at h <;> simp [pure, Except.pure, throw, throwThe, MonadExceptOf.throw] at h

end Invocation

/-- What a command line does, and how much detail of it is to be shown. -/
def Surroundings.run (env : Surroundings) (line : List String) : Except UsageError (Nat × Outcome) := do
  let invocation ← Invocation.ofArguments line
  let outcome ← invocation.perform env
  return (invocation.verbosity, outcome)

/-- The words before the name of a command change how much detail is shown, and nothing else. -/
theorem Surroundings.run_of_lead (env : Surroundings) {n : Nat} {lead words : List String} {name : String} {verb : Verb}
    (h : Lead n lead) (hname : Verb.ofName? name = some verb) :
    env.run (lead ++ name :: words) = (env.run (name :: words)).map (fun r => (n, r.2)) := by
  have hbare : Invocation.ofArguments (name :: words) = _ := Invocation.ofArguments_of_lead .nil hname
  rw [run, run, Invocation.ofArguments_of_lead h hname, hbare]
  cases Words.gather verb.options words {} with
  | error e => rfl
  | ok w =>
    simp only [Except.map, bind, Except.bind, Invocation.perform]
    cases w.command verb env <;> rfl

/-- A run prints only what can be printed. -/
theorem Surroundings.isPrintable_of_run {env : Surroundings} {line : List String} {n : Nat} {o : Outcome}
    (h : env.run line = .ok (n, o)) : o.output.all Line.isPrintable = true := by
  obtain ⟨invocation, -, h⟩ := bind_eq_ok_iff.1 h
  obtain ⟨outcome, hperform, h⟩ := bind_eq_ok_iff.1 h
  obtain ⟨-, rfl⟩ := by simpa [pure, Except.pure] using h
  cases invocation with
  | version =>
    obtain rfl := by simpa [Invocation.perform] using hperform
    simp [Line.isPrintable, Line.ofText, Span.plain]
  | run v verb w =>
    rw [Invocation.perform] at hperform
    cases hcommand : w.command verb env with
    | error e => simp [hcommand, Except.map] at hperform
    | ok command =>
      obtain rfl := by simpa [hcommand, Except.map] using hperform
      exact Outcome.all_isPrintable_uptoPrintable _

/-! ### What is shown -/

theorem Text.ofString_shown {t : Text} (h : t.isPrintable = true) : Text.ofString t.shown = t := by
  obtain ⟨s, rfl⟩ := Text.isPrintable_iff.1 h
  rw [Text.shown_ofString]

/-- The texts that are shown of an outcome, its log apart: what is printed, and the reason of a failure. -/
def Outcome.texts (o : Outcome) : List Text :=
  o.output.flatMap (List.map Span.text) ++ (o.stop.bind Stop.message?).toList

namespace Presentation

variable (look : Presentation) {o : Outcome}

/-- The log records that are shown. -/
def records (look : Presentation) (o : Outcome) : List LogRecord := o.log.filter look.shows

theorem records_of_none (h : look.verbosity = 0) (o : Outcome) : look.records o = [] := by
  rw [records, List.filter_eq_nil_iff]
  intro r _
  cases hlevel : r.level <;> simp [shows, Level.threshold, h, hlevel]

theorem records_of_one (h : look.verbosity = 1) (o : Outcome) :
    look.records o = o.log.filter (fun r => r.level = .info) := by
  refine List.filter_congr (fun r _ => ?_)
  cases hlevel : r.level <;> simp [shows, Level.threshold, h, hlevel]

theorem records_of_more (h : 2 ≤ look.verbosity) (o : Outcome) : look.records o = o.log := by
  rw [records, List.filter_eq_self]
  intro r _
  cases hlevel : r.level <;> simp [shows, Level.threshold, hlevel] <;> omega

theorem noEscape_output (h : ∀ t ∈ o.texts, t.NoEscape) : (Line.renderAll false o.output).NoEscape := by
  rw [Line.renderAll, Text.noEscape_flatMap]
  intro line hline
  rw [Text.noEscape_append, Line.render_false, Text.noEscape_flatMap]
  refine ⟨fun s hs => h s.text ?_, by unfold Text.NoEscape; decide⟩
  exact List.mem_append_left _ (List.mem_flatMap.2 ⟨line, hline, List.mem_map_of_mem hs⟩)

theorem noEscape_message (h : ∀ t ∈ o.texts, t.NoEscape) {message : Text}
    (hm : o.stop.bind Stop.message? = some message) : message.NoEscape := by
  refine h message (List.mem_append_right _ ?_)
  rw [hm]
  exact List.mem_singleton.2 rfl

/-- Without its colours, what is printed is the text of the lines. -/
theorem withoutControls_stdout (hprintable : o.output.all Line.isPrintable = true) (h : ∀ t ∈ o.texts, t.NoEscape) :
    (Text.ofString (look.stdout o)).withoutControls = Line.renderAll false o.output := by
  have hplain := noEscape_output h
  have hbare : ∀ colour, (Line.renderAll colour o.output).withoutControls = Line.renderAll false o.output :=
    fun colour => (Line.coloured_renderAll colour o.output).withoutControls hplain
  have hshown : ∀ colour, Text.ofString (Line.renderAll colour o.output).shown = Line.renderAll colour o.output :=
    fun colour => Text.ofString_shown (Line.isPrintable_renderAll hprintable colour)
  unfold stdout printed
  split
  · rw [hshown, hbare]
  · rw [hbare, hshown, Text.withoutControls_of_noEscape hplain]

/-- The reason of a failure is shown alike everywhere. -/
theorem errorText_of_noEscape (look' : Presentation) (h : ∀ t ∈ o.texts, t.NoEscape) :
    look.errorText o = look'.errorText o := by
  unfold errorText
  cases hm : o.stop.bind Stop.message? with
  | none => rfl
  | some message =>
    have hprinted : ∀ look : Presentation, look.printed message = message := by
      intro look
      rw [printed, Text.withoutControls_of_noEscape (noEscape_message h hm), ite_self]
    dsimp only
    rw [hprinted, hprinted]

end Presentation

/-! ### A request that cannot be satisfied -/

/-- The request of one query alone, without a wallet. -/
def plainSurroundings : Surroundings :=
  { files := Files.ofTexts [(requestPath, plainText)], directory := homeDirectory }

/-- What a decision on it does: its query is missing. -/
def missingOutcome : Outcome := (plainRequest.verdict [] [] .table).logged (plainRequest.loadedFrom requestPath)

theorem run_missing : plainSurroundings.run ["resolve", "r.yml"] = .ok (0, missingOutcome) := by
  have hline : Invocation.ofArguments ["resolve", "r.yml"] = .ok (.run 0 .resolve ⟨["r.yml"], []⟩) := by decide
  have hcommand : Words.command ⟨["r.yml"], []⟩ .resolve plainSurroundings = .ok (.resolve requestPath none [] .table) := by
    rfl
  have hload : plainSurroundings.files.loadRequest requestPath = .ok plainRequest :=
    Files.loadRequest_ofTexts (by simp) ofYaml_plainText rfl
  have hresolve : plainSurroundings.files.resolve homeDirectory requestPath none [] .table = missingOutcome := by
    rw [Files.resolve, hload]
    rfl
  have hprintable : missingOutcome.uptoPrintable = missingOutcome := Outcome.uptoPrintable_of_all (by decide)
  have hperform : (Invocation.run 0 .resolve ⟨["r.yml"], []⟩).perform plainSurroundings = .ok missingOutcome := by
    rw [Invocation.perform, hcommand, Except.map, Command.outcome, ← hprintable]
    exact congrArg (fun o => Except.ok o.uptoPrintable) hresolve
  rw [Surroundings.run, hline]
  exact congrArg (Except.map (fun o => (0, o))) hperform

/-! ### Two ways to show a run -/

/-- **The switches of a run change how it is shown, and not what it does.**  Every command line that is read as a command
has words before the name of the command that say how much detail is shown.  Other words there, a terminal or none, colours
or none leave all the rest: the run is refused for the same reason, or it has the same outcome, with its exit status and
the reason of its failure; unless what is shown holds the escape character, the reason is worded alike, and the same is
printed once the colours are off.  Of the log, nothing is shown without a request for detail, with one request exactly the
records of interest, in order, and with more all records. -/
theorem presentation_harmless (env : Surroundings) :
    (∀ line n verb w, Invocation.ofArguments line = .ok (.run n verb w) →
      ∃ lead name words, Lead n lead ∧ Verb.ofName? name = some verb ∧ line = lead ++ name :: words) ∧
    ∀ n n' lead lead' name verb words, Lead n lead → Lead n' lead' → Verb.ofName? name = some verb →
      (∀ e, env.run (lead ++ name :: words) = .error e ↔ env.run (lead' ++ name :: words) = .error e) ∧
      ∀ v o, env.run (lead ++ name :: words) = .ok (v, o) →
        v = n ∧ env.run (lead' ++ name :: words) = .ok (n', o) ∧
        ∀ look look' : Presentation, look.verbosity = n → look'.verbosity = n' →
          ((∀ t ∈ o.texts, t.NoEscape) →
            (Text.ofString (look.stdout o)).withoutControls = (Text.ofString (look'.stdout o)).withoutControls ∧
            look.errorText o = look'.errorText o) ∧
          look.stderr o = String.join ((look.records o).map (LogRecord.line (!look.noColour))) ++ look.errorText o ∧
          (n = 0 → look.records o = []) ∧
          (n = 1 → 2 ≤ n' → look.records o = (look'.records o).filter (fun r => r.level = .info)) ∧
          (2 ≤ n → look.records o = o.log) := by
  refine ⟨fun line n verb w h => Invocation.exists_lead h, ?_⟩
  intro n n' lead lead' name verb words hlead hlead' hname
  rw [env.run_of_lead hlead hname, env.run_of_lead hlead' hname]
  cases hrun : env.run (name :: words) with
  | error e => exact ⟨fun _ => Iff.rfl, fun _ _ h => by simp [Except.map] at h⟩
  | ok r =>
    refine ⟨fun _ => by simp [Except.map], ?_⟩
    intro v o h
    obtain ⟨rfl, rfl⟩ := by simpa [Except.map] using h
    have hprintable := Surroundings.isPrintable_of_run hrun
    refine ⟨rfl, rfl, ?_⟩
    intro look look' hn hn'
    refine ⟨fun hplain => ⟨?_, look.errorText_of_noEscape look' hplain⟩, rfl, ?_, ?_, ?_⟩
    · rw [look.withoutControls_stdout hprintable hplain, look'.withoutControls_stdout hprintable hplain]
    · rintro rfl
      exact look.records_of_none hn r.2
    · rintro rfl hmore
      rw [look.records_of_one hn, look'.records_of_more (hn' ▸ hmore)]
    · intro hmore
      exact look.records_of_more (hn ▸ hmore) r.2

/-- One request for detail, on a terminal or not, against two: the same is printed and reported, and of the two records the
one of interest is shown. -/
theorem presentation_harmless_missing (terminal terminal' noColour noColour' : Bool) :
    let one : Presentation := ⟨1, terminal, noColour⟩
    let two : Presentation := ⟨2, terminal', noColour'⟩
    Invocation.ofArguments ["--verbose", "-v", "resolve", "r.yml"] = .ok (.run 2 .resolve ⟨["r.yml"], []⟩) ∧
    (∃ lead name words, Lead 2 lead ∧ Verb.ofName? name = some .resolve ∧
      ["--verbose", "-v", "resolve", "r.yml"] = lead ++ name :: words) ∧
    Lead 1 ["-v"] ∧ Lead 2 ["--verbose", "-v"] ∧ Verb.ofName? "resolve" = some .resolve ∧
    plainSurroundings.run ["-v", "resolve", "r.yml"] = .ok (1, missingOutcome) ∧
    plainSurroundings.run ["--verbose", "-v", "resolve", "r.yml"] = .ok (2, missingOutcome) ∧
    (∀ t ∈ missingOutcome.texts, t.NoEscape) ∧ missingOutcome.log.length = 2 ∧
    (Text.ofString (one.stdout missingOutcome)).withoutControls =
      (Text.ofString (two.stdout missingOutcome)).withoutControls ∧
    one.errorText missingOutcome = two.errorText missingOutcome ∧
    (two.records missingOutcome).map LogRecord.level = [.debug, .info] ∧
    (one.records missingOutcome).map LogRecord.message = ["request cannot be satisfied: missing credentials a"] := by
  intro one two
  have hone : Lead 1 ["-v"] := .short 0 .nil
  have htwo : Lead 2 ["--verbose", "-v"] := .long hone
  have hname : Verb.ofName? "resolve" = some .resolve := by decide
  have hrun : plainSurroundings.run ["-v", "resolve", "r.yml"] = .ok (1, missingOutcome) := by
    rw [← List.singleton_append, Surroundings.run_of_lead _ hone hname, run_missing]
    rfl
  have hplain : ∀ t ∈ missingOutcome.texts, t.NoEscape := by
    unfold Text.NoEscape
    decide
  have hline : Invocation.ofArguments ["--verbose", "-v", "resolve", "r.yml"] = .ok (.run 2 .resolve ⟨["r.yml"], []⟩) := by
    decide
  obtain ⟨hsplit, hall⟩ := presentation_harmless plainSurroundings
  obtain ⟨-, hok⟩ := hall 1 2 ["-v"] ["--verbose", "-v"] "resolve" .resolve ["r.yml"] hone htwo hname
  obtain ⟨-, hrun', hlooks⟩ := hok 1 missingOutcome hrun
  obtain ⟨hshown, -, -, hinfo, -⟩ := hlooks one two rfl rfl
  obtain ⟨hstdout, herror⟩ := hshown hplain
  have hrecords : two.records missingOutcome = missingOutcome.log := two.records_of_more (Nat.le_refl 2) missingOutcome
  refine ⟨hline, hsplit _ 2 .resolve _ hline, hone, htwo, hname, hrun, hrun', hplain, rfl, hstdout, herror, ?_, ?_⟩
  · rw [hrecords]
    rfl
  · rw [hinfo rfl (Nat.le_refl 2), hrecords]
    rfl

end Disclosure
