import Disclosure.Outcome

/-!
# Disclosure.Presentation — an outcome on the screen

Output is coloured on a terminal unless colours are refused; log records are coloured unless colours are refused.
Without a terminal no control sequence is printed, not even one that the data hold; log records keep theirs.  Records of
interest are shown from one `-v` on, the others from two on.  A surrogate in what is reported is shown by its number.

* `stdout_congr`, `errorText_congr`: neither depends on the verbosity.
-/

namespace Disclosure

/-- What the look of an outcome depends on. -/
structure Presentation where
  verbosity : Nat := 0
  terminal : Bool := false
  noColour : Bool := false
deriving Repr, DecidableEq

/-- The colour of a level. -/
def Level.code : Level → String
  | .debug => "\x1b[36m"
  | .info => "\x1b[32m"

/-- The verbosity from which on records of a level are shown. -/
def Level.threshold : Level → Nat
  | .debug => 2
  | .info => 1

/-- A record as a line: the level eight characters wide, the channel, the message. -/
def LogRecord.line (colour : Bool) (r : LogRecord) : String :=
  let code := if colour then r.level.code else ""
  let reset := if colour then resetCode else ""
  let blanks := String.ofList (List.replicate (8 - r.level.name.length) ' ')
  code ++ r.level.name ++ blanks ++ reset ++ " " ++ r.channel ++ ": " ++ r.message ++ reset ++ "\n"

namespace Presentation

/-- Whether a record is shown. -/
def shows (p : Presentation) (r : LogRecord) : Bool := r.level.threshold ≤ p.verbosity

/-- A text as it is printed: control sequences are for terminals. -/
def printed (p : Presentation) (t : Text) : Text := if p.terminal then t else t.withoutControls

/-- What a command prints. -/
def stdout (p : Presentation) (o : Outcome) : String :=
  (p.printed (Line.renderAll (p.terminal && !p.noColour) o.output)).shown

/-- The log records that are shown. -/
def logText (p : Presentation) (o : Outcome) : String :=
  String.join ((o.log.filter p.shows).map (LogRecord.line (!p.noColour)))

/-- The reason of a failure, if it has a wording. -/
def errorText (p : Presentation) (o : Outcome) : String :=
  match o.stop.bind Stop.message? with
  | none => ""
  | some message => "Error: " ++ (p.printed message).shown ++ "\n"

/-- What a command reports: log records, then the reason of a failure. -/
def stderr (p : Presentation) (o : Outcome) : String := p.logText o ++ p.errorText o

theorem stdout_congr {p q : Presentation} (ht : p.terminal = q.terminal) (hc : p.noColour = q.noColour) (o : Outcome) :
    p.stdout o = q.stdout o := by
  simp [stdout, printed, ht, hc]

theorem errorText_congr {p q : Presentation} (ht : p.terminal = q.terminal) (o : Outcome) :
    p.errorText o = q.errorText o := by
  simp [errorText, printed, ht]

end Presentation

end Disclosure
