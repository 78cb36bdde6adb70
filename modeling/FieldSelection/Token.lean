/-!
Contract: the tokens of the field-selection language.

Owns:
- the five reserved characters and the six kinds of token;
- the spelling of a token in a text, and its description in a message;
- `Token.ofRun`, which reads one run of characters as a token;
- `Lexeme`, a token with the place where it starts.

Does not own: cutting a text into runs (`FieldSelection.Token.Lexer`).

A word is any run of characters that are not reserved. Blanks, controls and
letters of every script are word characters, so each character of a text
belongs to exactly one token.
-/

set_option autoImplicit false

namespace FieldSelection

/-- The characters that end a word; each is a token of its own. -/
def reserved : List Char := [',', '/', '(', ')', '*']

/-- Whether a character can stand in a word. -/
def isWordCharacter (character : Char) : Bool := !reserved.contains character

inductive Token where
  | word (text : String)
  | wildcard
  | comma
  | slash
  | openParen
  | closeParen
deriving DecidableEq, Repr, Inhabited

namespace Token

/-- The characters that a token stands for in a text. -/
def spelling : Token → String
  | .word text => text
  | .wildcard => "*"
  | .comma => ","
  | .slash => "/"
  | .openParen => "("
  | .closeParen => ")"

/-- How a message names a token that it found. -/
def describe : Token → String
  | .word text => s!"word `{text}`"
  | .wildcard => "`*`"
  | .comma => "`,`"
  | .slash => "`/`"
  | .openParen => "`(`"
  | .closeParen => "`)`"

/-- How many bytes of UTF-8 a token takes in a text. -/
def byteLength (token : Token) : Nat := token.spelling.utf8ByteSize

/-- The token that a run of characters spells; only the five lone reserved characters are not words. -/
def ofRun : List Char → Token
  | ['*'] => .wildcard
  | [','] => .comma
  | ['/'] => .slash
  | ['('] => .openParen
  | [')'] => .closeParen
  | run => .word (String.ofList run)

/-- A run of characters is read as a token that spells it. -/
theorem spelling_ofRun
    (run : List Char) :
    (ofRun run).spelling = String.ofList run := by
  unfold ofRun
  split <;> rfl

end Token

/-- A token together with the byte offset where it starts. -/
structure Lexeme where
  token : Token
  offset : Nat
deriving DecidableEq, Repr, Inhabited

end FieldSelection
