import FieldSelection.Token

/-!
Contract: why a text is refused, and the message that says so.

Owns:
- `Expectation`, what would have been accepted at the place of the error;
- `Found`, what stands there instead;
- `SyntaxError`, the place with both, and its message.

Does not own: the choice of the place, which is the business of the parser, of
the check of words and of the limit on length.
-/

set_option autoImplicit false

namespace FieldSelection

/-- What a text has to go on with at the place of an error. -/
inductive Expectation where
  /-- A word or the wildcard. -/
  | fieldName
  /-- The end of an open sub-selection. -/
  | closeParen
  /-- One more step, one more alternative, or the end. -/
  | separatorOrEnd
  /-- A character that is not reserved, in a word that stands alone. -/
  | nameCharacter
  /-- A shorter text. -/
  | atMostBytes (limit : Nat)
deriving DecidableEq, Repr, Inhabited

/-- What stands at the place of an error. -/
inductive Found where
  | token (read : Token)
  | endOfInput
  | character (read : Char)
  | bytes (count : Nat)
deriving DecidableEq, Repr, Inhabited

/-- An error at a byte offset. -/
structure SyntaxError where
  offset : Nat
  expected : Expectation
  found : Found
deriving DecidableEq, Repr, Inhabited

def Expectation.text : Expectation → String
  | .fieldName => "a field name"
  | .closeParen => "`)`"
  | .separatorOrEnd => "`,`, `/` or end of input"
  | .nameCharacter => "a field name character"
  | .atMostBytes limit => s!"at most {limit} bytes"

def Found.text : Found → String
  | .token read => read.describe
  | .endOfInput => "end of input"
  | .character read => s!"`{read}`"
  | .bytes count => s!"{count} bytes"

/-- The one line that reports an error to its reader. -/
def SyntaxError.message (error : SyntaxError) : String :=
  s!"invalid field selection at offset {error.offset}: expected {error.expected.text}, found {error.found.text}"

end FieldSelection
