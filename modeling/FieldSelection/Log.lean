/-!
Contract: the records that reading and matching leave in a log.

Owns:
- `LogLevel` and `LogRecord`.

Does not own: who writes which record, or where records go.
-/

set_option autoImplicit false

namespace FieldSelection

inductive LogLevel where
  | trace
  | debug
deriving DecidableEq, Repr

def LogLevel.label : LogLevel → String
  | .trace => "TRACE"
  | .debug => "DEBUG"

structure LogRecord where
  level : LogLevel
  target : String
  message : String
deriving DecidableEq, Repr

end FieldSelection
