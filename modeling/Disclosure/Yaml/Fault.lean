/-!
# Disclosure.Yaml.Fault — why a text cannot be read

Most causes are faults of the text: something is not written as it should be.  A `Flaw` is different.  The text is
written as it should be, but what it asks for does not exist, or reading it comes to no end.
-/

namespace Disclosure.Yaml

/-- Why there is nothing that a well-written text stands for. -/
inductive Flaw where
  /-- A numeral that spells no number, a number with too many digits, or a day that is in no calendar. -/
  | noValue
  /-- A numeral without any character. -/
  | emptyNumeral
  /-- A word that is no boolean. -/
  | noBoolean
  /-- A text that is no date and no time. -/
  | noTimestamp
  /-- An object where a date is meant. -/
  | objectAsTimestamp
  /-- A number in base 60 with too many places. -/
  | tooManyPlaces
  /-- An escape for a number that no character has. -/
  | noCharacter
  /-- An escape for a number that is too large to be one of a character. -/
  | hugeCharacter
  /-- Collections inside one another, too many levels deep. -/
  | tooDeep
  /-- A text that is given by itself. -/
  | endless
deriving Repr, DecidableEq

/-- What is wrong. -/
inductive Cause where
  /-- A character that no file may hold. -/
  | notPrintable (c : Char)
  /-- A quote that is not closed. -/
  | openQuote
  /-- A document mark inside a quoted text. -/
  | markInText
  /-- A backslash before something that it cannot escape. -/
  | badEscape
  /-- A character that nothing can start with here. -/
  | strayChar (c : Char)
  /-- Something that cannot stand here. -/
  | misplaced (what : String)
  /-- A field name that no colon follows. -/
  | missingColon
  /-- A directive, an anchor, a tag or the head of a block text that is not written as it should be. -/
  | badForm (what : String)
  /-- A tag that says nothing about this datum. -/
  | unknownTag (tag : String)
  /-- An alias for nothing, or an anchor that is used twice. -/
  | badName (name : String)
  /-- A collection as the name of a field. -/
  | collectionAsName
  /-- Something else than objects to be merged into an object. -/
  | notMergeable
  /-- A text, a list or an object where the tag asks for another kind. -/
  | wrongKind
  /-- Bytes that are not written in the letters for them. -/
  | badBytes
  /-- A well-written text that stands for nothing. -/
  | flaw (f : Flaw)
deriving Repr, DecidableEq

/-- What is wrong; the line, counted from one, if it is about a single line; and the number of characters at the start
of the text that had to be looked at to find it. -/
structure Fault where
  line : Option Nat
  cause : Cause
  seen : Nat := 0
deriving Repr, DecidableEq

/-- The wording of each flaw. -/
def Flaw.message : Flaw → String
  | .noValue => "there is no such number or day"
  | .emptyNumeral => "a number is missing"
  | .noBoolean => "this is neither true nor false"
  | .noTimestamp => "this is neither a date nor a time"
  | .objectAsTimestamp => "an object is no date"
  | .tooManyPlaces => "the number has too many places"
  | .noCharacter | .hugeCharacter => "there is no such character"
  | .tooDeep => "too many collections inside one another"
  | .endless => "the text is given by itself"

/-- The wording of each cause. -/
def Cause.message : Cause → String
  | .notPrintable c => "character number " ++ Nat.repr c.toNat ++ " is not allowed"
  | .openQuote => "the quote is not closed"
  | .markInText => "a document mark stands inside a text"
  | .badEscape => "unknown escape"
  | .strayChar c => "nothing starts with '" ++ String.singleton c ++ "' here"
  | .misplaced what => what ++ " cannot stand here"
  | .missingColon => "a colon is missing after a field name"
  | .badForm what => what ++ " is malformed"
  | .unknownTag tag => "the tag '" ++ tag ++ "' does not fit"
  | .badName name => "the name '" ++ name ++ "' stands for nothing or is used twice"
  | .collectionAsName => "a collection cannot name a field"
  | .notMergeable => "only objects can be merged"
  | .wrongKind => "the tag asks for another kind of data"
  | .badBytes => "the bytes are malformed"
  | .flaw f => f.message

/-- The flaw, if the text is well written. -/
def Cause.flaw? : Cause → Option Flaw
  | .flaw f => some f
  | _ => none

/-- Line and cause. -/
def Fault.message (f : Fault) : String :=
  match f.line with
  | some line => "line " ++ Nat.repr line ++ ": " ++ f.cause.message
  | none => f.cause.message

end Disclosure.Yaml
