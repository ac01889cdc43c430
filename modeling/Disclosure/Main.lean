import Disclosure.Presentation

/-!
# Disclosure.Main — the command line

Reads the files that the command line can need, does what it asks for, and prints the outcome.
-/

namespace Disclosure

/-- What the system says about an error. -/
def wording : IO.Error → String
  | .alreadyExists _ _ why | .otherError _ why | .resourceBusy _ why | .resourceVanished _ why
  | .unsupportedOperation _ why | .hardwareFault _ why | .unsatisfiedConstraints _ why | .illegalOperation _ why
  | .protocolError _ why | .timeExpired _ why | .interrupted _ _ why | .noFileOrDirectory _ _ why
  | .invalidArgument _ _ why | .permissionDenied _ _ why | .resourceExhausted _ _ why | .inappropriateType _ _ why
  | .noSuchThing _ _ why | .userError why => why
  | .unexpectedEof => "Unexpected end of file"

/-- Why a path cannot be read, by the error that says so and whether the path leads anywhere.  One that does not counts
as missing, whatever keeps it from leading there. -/
def faultOfError (found : Bool) : IO.Error → ReadFault
  | .inappropriateType .. => if found then .isDirectory else .notADirectory
  -- Errors of this kind have several numbers; the system tells by 13 that access is denied.
  | .permissionDenied _ 13 _ => if found then .notAllowed else .missing
  | e => if found then .failed (wording e) else .missing

/-- Whether a path leads anywhere. -/
def leadsSomewhere (path : Path) : IO Bool := do
  try
    let _ ← IO.FS.realPath path.text
    return true
  catch _ => return false

/-- The bytes of a file, or why it has none. -/
def readFile (path : Path) : IO (Except ReadFault ByteArray) := do
  try
    let bytes ← IO.FS.readBinFile path.text
    return .ok bytes
  catch e => return .error (faultOfError (← leadsSomewhere path) e)

/-- The contents of the given paths. -/
def readFiles : List Path → IO (List (Path × Except ReadFault ByteArray))
  | [] => return []
  | path :: rest => do
    let content ← readFile path
    return (path, content) :: (← readFiles rest)

/-- Prints why the command line is refused. -/
def refuse (e : UsageError) : IO UInt32 := do
  IO.eprintln ("Error: " ++ e.message)
  return UInt32.ofNat e.status

end Disclosure

open Disclosure

def main (words : List String) : IO UInt32 := do
  match Invocation.ofArguments words with
  | .error e => refuse e
  | .ok invocation =>
    let directory := Path.ofText (← IO.currentDir).toString
    let wallet ← IO.getEnv "DCQLMATCH_WALLET"
    let contents ← readFiles (invocation.paths wallet directory)
    let files : Files := fun path => (contents.lookup path).getD (.error .missing)
    match invocation.perform { files, directory, wallet } with
    | .error e => refuse e
    | .ok outcome =>
      let look : Presentation :=
        { verbosity := invocation.verbosity
          terminal := ← (← IO.getStdout).isTty
          noColour := (← IO.getEnv "NO_COLOR").isSome }
      IO.print (look.stdout outcome)
      IO.eprint (look.stderr outcome)
      return UInt32.ofNat outcome.status
