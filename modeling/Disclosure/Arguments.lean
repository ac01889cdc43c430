/-!
# Disclosure.Arguments — the words of a command line

`Invocation.ofArguments` reads a command line: options of the program (`-v`, `--verbose`, `--version`), the name of
a command, then the arguments and options of the command in any order.  The value of an option is the next word, or
stands behind `=` (after `--name`) or right behind the letter (after `-x`).  After `--` no word is an option; but a word
that should be a command and is none is read once more as an option of the program, with those that follow it.

Whether the values of options and arguments can be used is not decided here.
-/

namespace Disclosure

/-- How a decision is printed. -/
inductive OutputForm where
  | table
  | json
deriving Repr, DecidableEq

/-- The commands. -/
inductive Verb where
  /-- Decide which credentials are disclosed. -/
  | resolve
  /-- Put a request into words. -/
  | explain
deriving Repr, DecidableEq

/-- Why a command line is refused. -/
inductive UsageError where
  | unknownOption (name : String)
  | missingValue (name : String)
  | unexpectedValue (name : String)
  | missingCommand
  | unknownCommand (name : String)
  | missingRequest
  | extraArgument (word : String)
  | unknownForm (word : String)
  | noSuchFile (word : String)
  | notAFile (word : String)
  | notReadable (word : String)
  /-- The word holds a character that no name of a file has. -/
  | noName (word : String)
deriving Repr, DecidableEq

/-- The wording of each cause. -/
def UsageError.message : UsageError → String
  | .unknownOption name => "no such option: " ++ name
  | .missingValue name => "option " ++ name ++ " needs a value"
  | .unexpectedValue name => "option " ++ name ++ " takes no value"
  | .missingCommand => "a command is needed: resolve or explain"
  | .unknownCommand name => "no such command: " ++ name
  | .missingRequest => "a request file is needed"
  | .extraArgument word => "one argument too many: " ++ word
  | .unknownForm word => "the output is table or json, not " ++ word
  | .noSuchFile word => "there is no file " ++ word
  | .notAFile word => word ++ " is a directory"
  | .notReadable word => word ++ " may not be read"
  | .noName word => word ++ " cannot be the name of a file"

/-- The exit status for each cause: 2, but 1 for a name that no file can have. -/
def UsageError.status : UsageError → Nat
  | .noName _ => 1
  | _ => 2

/-- What a word of a command line is. -/
inductive Word where
  /-- `--` alone. -/
  | endOfOptions
  /-- An option, with its value if the word holds one. -/
  | option (name : String) (value : Option String)
  /-- Anything else. -/
  | argument
deriving Repr, DecidableEq

/-- Options start with a minus sign and have at least one more character. -/
def Word.ofText (s : String) : Word :=
  match s.toList with
  | ['-', '-'] => .endOfOptions
  | '-' :: '-' :: rest =>
    let name := "--" ++ String.ofList (rest.takeWhile (· ≠ '='))
    match rest.dropWhile (· ≠ '=') with
    | [] => .option name none
    | _ :: value => .option name (some (String.ofList value))
  | '-' :: c :: rest => .option (String.ofList ['-', c]) (if rest.isEmpty then none else some (String.ofList rest))
  | _ => .argument

/-- What an option of a command sets. -/
inductive Setting where
  | wallet
  | marked
  | form
deriving Repr, DecidableEq

namespace Verb

/-- The command of the given name. -/
def ofName? (name : String) : Option Verb := [("resolve", Verb.resolve), ("explain", .explain)].lookup name

/-- The options of a command. -/
def options : Verb → List (String × Setting)
  | .explain => [("-w", .wallet), ("--wallet", .wallet)]
  | .resolve =>
    [("-w", .wallet), ("--wallet", .wallet), ("-a", .marked), ("--available", .marked), ("-o", .form),
     ("--output", .form)]

end Verb

/-- The arguments and options of a command, each in order. -/
structure Words where
  arguments : List String := []
  settings : List (Setting × String) := []
deriving Repr, DecidableEq

namespace Words

/-- The values that an option was given, in order. -/
def valuesOf (w : Words) (setting : Setting) : List String :=
  (w.settings.filter (fun s => s.1 == setting)).map Prod.snd

/-- The words of a command, after those taken already. -/
def gather (options : List (String × Setting)) : List String → Words → Except UsageError Words
  | [], w => .ok w
  | s :: rest, w =>
    match Word.ofText s with
    | .endOfOptions => .ok { w with arguments := w.arguments ++ rest }
    | .argument => gather options rest { w with arguments := w.arguments ++ [s] }
    | .option name value =>
      match options.lookup name with
      | none => .error (.unknownOption name)
      | some setting =>
        match value with
        | some v => gather options rest { w with settings := w.settings ++ [(setting, v)] }
        | none =>
          match rest with
          | [] => .error (.missingValue name)
          | v :: later => gather options later { w with settings := w.settings ++ [(setting, v)] }

/-- The form of the output; of several the last one counts. -/
def form (w : Words) : Except UsageError OutputForm :=
  match (w.valuesOf .form).getLast? with
  | none | some "table" => .ok .table
  | some "json" => .ok .json
  | some other => .error (.unknownForm other)

end Words

/-- What a command line asks for. -/
inductive Invocation where
  | version
  | run (verbosity : Nat) (verb : Verb) (words : Words)
deriving Repr, DecidableEq

namespace Invocation

/-- The options of the program: the verbosity, whether the version is wanted, and the words that follow. -/
def programOptions (count : Nat) (wanted : Bool) : List String → Except UsageError (Nat × Bool × List String)
  | [] => .ok (count, wanted, [])
  | s :: rest =>
    match Word.ofText s with
    | .endOfOptions => .ok (count, wanted, rest)
    | .argument => .ok (count, wanted, s :: rest)
    | .option "--version" none => programOptions count true rest
    | .option "--verbose" none => programOptions (count + 1) wanted rest
    | .option "-v" none => programOptions (count + 1) wanted rest
    | .option "-v" (some more) =>
      if more.toList.all (· == 'v') then programOptions (count + 1 + more.length) wanted rest
      else .error (.unknownOption s)
    | .option name none => .error (.unknownOption name)
    | .option name (some _) =>
      if name == "--version" || name == "--verbose" then .error (.unexpectedValue name)
      else .error (.unknownOption name)

/-- What a command line asks for. -/
def ofArguments (words : List String) : Except UsageError Invocation := do
  let (count, wanted, rest) ← programOptions 0 false words
  if wanted then return .version
  else
    match rest with
    | [] => throw .missingCommand
    | name :: words =>
      match Verb.ofName? name with
      | some verb => return .run count verb (← Words.gather verb.options words {})
      | none => do
        let (_, wanted, _) ← programOptions 0 false rest
        if wanted then return .version else throw (.unknownCommand name)

/-- How many times the command line asks for more detail. -/
def verbosity : Invocation → Nat
  | .version => 0
  | .run verbosity _ _ => verbosity

end Invocation

end Disclosure
