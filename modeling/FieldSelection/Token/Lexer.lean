import FieldSelection.Token.Stream

/-!
Contract: the lexemes of a text.

Owns:
- `Token.ofText`, the tokens of a text: a longest run of word characters is one
  word, and each reserved character is a token;
- `TokenStream.ofText`, the same tokens with their byte offsets.

Does not own: any notion of failure. Every text has exactly one list of tokens,
and nothing of the text is skipped.
-/

set_option autoImplicit false

namespace FieldSelection

/-- The runs of a text: neighbours stay together if both are word characters. -/
def runs (text : String) : List (List Char) :=
  text.toList.splitBy fun left right => isWordCharacter left && isWordCharacter right

/-- The tokens of a text, in order. -/
def Token.ofText (text : String) : List Token := (runs text).map Token.ofRun

/-- Places a token at the current offset, and moves the offset past it. -/
def Token.place (token : Token) : StateM Nat Lexeme :=
  modifyGet fun offset => (⟨token, offset⟩, offset + token.byteLength)

/-- The tokens, each at the offset where the ones before it end. -/
def Lexeme.layOut (offset : Nat) (tokens : List Token) : List Lexeme :=
  ((tokens.mapM Token.place).run offset).1

/-- The lexemes of a text, which end at its length in bytes. -/
def TokenStream.ofText (text : String) : TokenStream :=
  ⟨Lexeme.layOut 0 (Token.ofText text), text.utf8ByteSize⟩

/-- No token is placed differently for the ones that follow it. -/
theorem Lexeme.layOut_cons
    (offset : Nat)
    (token : Token)
    (rest : List Token) :
    Lexeme.layOut offset (token :: rest)
      = ⟨token, offset⟩ :: Lexeme.layOut (offset + token.byteLength) rest := by
  simp [Lexeme.layOut, Token.place]
  rfl

end FieldSelection
