import FieldSelection.Token

/-!
Contract: the lexemes of a text, read from its front one at a time.

Owns:
- `Token.atFront?`, the longest word or the reserved character that a text begins with;
- `Lexeme.gather?`, which reads lexemes as long as a token begins at what is left;
- `Lexeme.ofText?`, the lexemes of a text of which nothing is left over.

Does not own: the cut of a text into all its runs at once (`FieldSelection.Token.Lexer`).

A lexeme stands where the whole text is ahead, in bytes, of what is still to be read.
The reading may fail in two ways: a token that takes no character would be read for
ever, and what no token begins with would be left over.
-/

set_option autoImplicit false

namespace FieldSelection

namespace Token

/-- The longest word that the characters begin with, and the characters after it. -/
def wordAtFront? (characters : List Char) : Option (Token × List Char) :=
  match characters.takeWhile isWordCharacter with
  | [] => none
  | run => some (.word (String.ofList run), characters.dropWhile isWordCharacter)

/-- The reserved character that the characters begin with, and the characters after it. -/
def reservedAtFront? : List Char → Option (Token × List Char)
  | ',' :: rest => some (.comma, rest)
  | '/' :: rest => some (.slash, rest)
  | '(' :: rest => some (.openParen, rest)
  | ')' :: rest => some (.closeParen, rest)
  | '*' :: rest => some (.wildcard, rest)
  | _ => none

/-- A word if one begins here, else a reserved character. -/
def atFront? (characters : List Char) : Option (Token × List Char) :=
  wordAtFront? characters <|> reservedAtFront? characters

end Token

namespace Lexeme

/-- The lexemes at the front of what is left of a text of `size` bytes, and what they leave. -/
def gather? (size : Nat) (left : List Char) : Option (List Lexeme × List Char) :=
  match Token.atFront? left with
  | none => some ([], left)
  | some (token, rest) =>
    if rest.length < left.length then do
      let (later, unread) ← gather? size rest
      some (⟨token, size - (String.ofList left).utf8ByteSize⟩ :: later, unread)
    else
      none
termination_by left.length

/-- The lexemes of a text, if they take up all of it. -/
def ofText? (text : String) : Option (List Lexeme) :=
  match gather? text.utf8ByteSize text.toList with
  | some (lexemes, []) => some lexemes
  | _ => none

end Lexeme

end FieldSelection
