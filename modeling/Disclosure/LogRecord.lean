/-!
# Disclosure.LogRecord — what is told about a run
-/

namespace Disclosure

/-- How much a record matters. -/
inductive Level where
  | debug
  | info
deriving Repr, DecidableEq

/-- The name of a level. -/
def Level.name : Level → String
  | .debug => "DEBUG"
  | .info => "INFO"

/-- A message on a channel. -/
structure LogRecord where
  level : Level
  channel : String
  message : String
deriving Repr, DecidableEq

/-- Level, channel and message on one line. -/
def LogRecord.text (r : LogRecord) : String := r.level.name ++ " " ++ r.channel ++ ": " ++ r.message

end Disclosure
