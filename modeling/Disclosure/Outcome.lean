import Disclosure.Arguments
import Disclosure.Loading
import Disclosure.Report.Disclosed
import Disclosure.Report.Explanation
import Disclosure.Report.Table

/-!
# Disclosure.Outcome — what a command does

An `Outcome` is the whole effect of a command: the lines that it prints, the records that it logs, and why it
stopped, if it did not succeed.  `Invocation.perform` is a function of the command line and its surroundings alone:
colours and the choice of the records that are shown come later, in `Presentation`.

* `all_isPrintable_uptoPrintable`: `Outcome.uptoPrintable` ends an outcome before its first line that cannot be printed.
-/

namespace Disclosure

/-- Why a command ends without success. -/
inductive Stop where
  | failure (f : Failure)
  | unsatisfied
  /-- A line holds a surrogate. -/
  | unprintable
  /-- The resolution has no JSON. -/
  | unwritable (why : Unwritable)

/-- The wording of each reason that has one. -/
def Stop.message? : Stop → Option Text
  | .failure f => f.message?
  | .unsatisfied => some "request cannot be satisfied"
  | .unprintable | .unwritable _ => none

/-- Printed lines, log records, and the reason of a failure. -/
structure Outcome where
  output : List Line := []
  log : List LogRecord := []
  stop : Option Stop := none

namespace Outcome

/-- Nothing but a failure. -/
def failed (f : Failure) : Outcome := { stop := some (.failure f) }

/-- The same outcome with a record before its own. -/
def logged (r : LogRecord) (o : Outcome) : Outcome := { o with log := r :: o.log }

/-- The same outcome with lines before its own. -/
def printed (lines : List Line) (o : Outcome) : Outcome := { o with output := lines ++ o.output }

/-- Success is 0, every other end is 1. -/
def status (o : Outcome) : Nat := if o.stop.isNone then 0 else 1

/-- The outcome as far as its lines can be printed: the first one that cannot is the end. -/
def uptoPrintable (o : Outcome) : Outcome :=
  if o.output.all Line.isPrintable then o
  else { o with output := o.output.takeWhile Line.isPrintable, stop := some .unprintable }

theorem uptoPrintable_of_all {o : Outcome} (h : o.output.all Line.isPrintable = true) : o.uptoPrintable = o := by
  simp [uptoPrintable, h]

theorem all_isPrintable_uptoPrintable (o : Outcome) : o.uptoPrintable.output.all Line.isPrintable = true := by
  unfold uptoPrintable
  split
  · assumption
  · simp

end Outcome

/-! ### The commands -/

/-- A request in words. -/
def Request.explanation (r : Request) (wallet : Option Wallet) : Outcome :=
  match r.credentialLines wallet with
  | (lines, some e) => { output := lines, stop := some (.failure (.request e)) }
  | (lines, none) =>
    match r.hiddenPurpose? with
    | some set => { output := lines ++ setHeading, stop := some (.failure (.request (.purposeNotShowable set))) }
    | none => { output := lines ++ r.setLines }

/-- Loads a request, and a wallet if one is given, and puts the request into words. -/
def Files.explain (files : Files) (request : Path) (wallet : Option Path) : Outcome :=
  match files.loadRequest request with
  | .error f => .failed f
  | .ok r =>
    Outcome.logged (r.loadedFrom request) <|
      match wallet with
      | none => r.explanation none
      | some path =>
        match files.loadWallet path with
        | .error f => .failed f
        | .ok documents => (r.explanation (some documents)).logged (Wallet.loadedFrom documents path)

/-- The lines of a decision; there are none if it has no JSON. -/
def Decision.lines (d : Decision) (c : Catalogue) : OutputForm → Except Unwritable (List Line)
  | .table => .ok ([[.dim ("Available: " ++ idList "none" d.available : String)], []] ++ d.table c)
  | .json => d.resolution.json.map (fun s => [Line.ofText s])

/-- Decides a request for the documents of a wallet. -/
def Request.verdict (r : Request) (wallet : Wallet) (marked : List String) (form : OutputForm) : Outcome :=
  match r.decide wallet marked with
  | .error e => .failed (.request e)
  | .ok d =>
    match d.lines r.catalogue form with
    | .error why => { log := d.resolution.log, stop := some (.unwritable why) }
    | .ok lines =>
      { output := lines
        log := d.resolution.log
        stop := if d.resolution.isSatisfied then none else some .unsatisfied }

/-- What is printed about a loaded wallet. -/
def Wallet.notice (wallet : Wallet) (path : Path) : OutputForm → List Line
  | .table => [[.dim ("Loaded " ++ Nat.repr wallet.length ++ " documents from " ++ path.text : String)]]
  | .json => []

/-- Loads a request and the wallet to use, and decides the request. -/
def Files.resolve (files : Files) (directory request : Path) (wallet : Option Path) (marked : List String)
    (form : OutputForm) : Outcome :=
  match files.loadRequest request with
  | .error f => .failed f
  | .ok r =>
    Outcome.logged (r.loadedFrom request) <|
      match files.walletPath? wallet directory with
      | none => r.verdict [] marked form
      | some path =>
        match files.loadWallet path with
        | .error f => .failed f
        | .ok documents =>
          ((r.verdict documents marked form).printed (Wallet.notice documents path form)).logged
            (Wallet.loadedFrom documents path)

/-! ### Command lines -/

/-- Where a command line is used: the files, the working directory, and the wallet that the environment names. -/
structure Surroundings where
  files : Files
  directory : Path
  wallet : Option String := none

namespace Surroundings

/-- The path of a file that must be there and may be read.  The word is followed step by step; the path leaves out
single points. -/
def existing (env : Surroundings) (word : String) : Except UsageError Path :=
  if word.isEmpty then .error (.noSuchFile word)
  else
    match env.files (.exact word) with
    | .ok _ | .error (.failed _) => .ok (.ofText word)
    | .error .noName => .error (.noName word)
    | .error .isDirectory => .error (.notAFile word)
    | .error .notAllowed => .error (.notReadable word)
    | .error .missing | .error .notADirectory => .error (.noSuchFile word)

/-- The wallet that is named: by the command line, else by the environment, where the empty name counts for none. -/
def walletWord (env : Surroundings) (given : Option String) : Option String :=
  match given with
  | some word => some word
  | none => env.wallet.filter (fun word => !word.isEmpty)

/-- The path of the wallet that is named; it must be there. -/
def walletPath (env : Surroundings) (given : Option String) : Except UsageError (Option Path) :=
  match env.walletWord given with
  | none => .ok none
  | some word => (env.existing word).map some

end Surroundings

/-- A command whose arguments can be used. -/
inductive Command where
  | resolve (request : Path) (wallet : Option Path) (marked : List String) (form : OutputForm)
  | explain (request : Path) (wallet : Option Path)

namespace Words

/-- The wallet that the words name. -/
def wallet (w : Words) : Option String := (w.valuesOf .wallet).getLast?

/-- Whether what the words say about a setting can be used. -/
def check (w : Words) (env : Surroundings) : Setting → Except UsageError Unit
  | .wallet => (env.walletPath w.wallet).map (fun _ => ())
  | .form => w.form.map (fun _ => ())
  | .marked => .ok ()

/-- The path of the request. -/
def requestPath (w : Words) (env : Surroundings) : Except UsageError Path :=
  match w.arguments with
  | [] => .error .missingRequest
  | word :: _ => env.existing word

/-- There must be no second argument. -/
def onlyOne (w : Words) : Except UsageError Unit :=
  match w.arguments.drop 1 with
  | [] => .ok ()
  | extra :: _ => .error (.extraArgument extra)

/-- The command, if its words can be used.  The options are looked at in their order, then the request, then a wallet
that only the environment names. -/
def command (w : Words) (verb : Verb) (env : Surroundings) : Except UsageError Command := do
  w.settings.forM (fun s => w.check env s.1)
  let request ← w.requestPath env
  let wallet ← env.walletPath w.wallet
  w.onlyOne
  match verb with
  | .resolve => return .resolve request wallet (w.valuesOf .marked) (← w.form)
  | .explain => return .explain request wallet

end Words

/-- What a command does. -/
def Command.outcome (command : Command) (env : Surroundings) : Outcome :=
  match command with
  | .resolve request wallet marked form => env.files.resolve env.directory request wallet marked form
  | .explain request wallet => env.files.explain request wallet

/-- The name and the version of the program. -/
def versionText : String := "dcqlmatch, version 0.1.0"

namespace Invocation

/-- Does what a command line asks for. -/
def perform (invocation : Invocation) (env : Surroundings) : Except UsageError Outcome :=
  match invocation with
  | .version => .ok { output := [Line.ofText versionText] }
  | .run _ verb words => (words.command verb env).map (fun command => (command.outcome env).uptoPrintable)

/-- Every path that the command line can lead to: the request, the named wallet, and the wallet of the directory. -/
def paths (invocation : Invocation) (wallet : Option String) (directory : Path) : List Path :=
  let named := match invocation with
    | .version => []
    | .run _ _ words => words.arguments.take 1 ++ (words.wallet.toList ++ wallet.toList)
  named.map Path.exact ++ named.map Path.ofText ++ [Files.defaultWallet directory]

end Invocation

end Disclosure
