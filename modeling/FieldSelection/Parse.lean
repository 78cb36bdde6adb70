import FieldSelection.Log
import FieldSelection.Parser
import FieldSelection.Text.Quoted
import FieldSelection.Token.Lexer

/-!
Contract: reading a selection from a text.

Owns:
- `Limits`, which bounds the length of the texts that are read at all;
- `parse`, `parseWith` and the records that a reading logs.

Does not own: the productions, or the cutting of a text into lexemes.

A text beyond the limit is refused before any of it is read, and its contents do
not reach the log.
-/

set_option autoImplicit false

namespace FieldSelection

/-- What is checked before a text is read. -/
structure Limits where
  /-- The length in bytes of the longest text that is read; `none` for any length. -/
  maxBytes : Option Nat := none
deriving DecidableEq, Repr

/-- The refusal of a text for its length, if it is too long. -/
def Limits.check (limits : Limits) (text : String) : Except SyntaxError Unit :=
  match limits.maxBytes with
  | none => .ok ()
  | some limit =>
    if limit < text.utf8ByteSize then
      .error ⟨limit, .atMostBytes limit, .bytes text.utf8ByteSize⟩
    else
      .ok ()

/-- Reads a text as one selection. -/
def parse (text : String) : Except SyntaxError Selection := (TokenStream.ofText text).parse

/-- Reads a text within limits. -/
def parseWith (limits : Limits) (text : String) : Except SyntaxError Selection := do
  limits.check text
  parse text

/-- The component that logs the reading of texts. -/
def parseTarget : String := "partial_fields"

/-- What reading a text within limits logs, in order. -/
def parseRecords (limits : Limits) (text : String) : List LogRecord :=
  match limits.check text with
  | .error _ => [⟨.debug, parseTarget, s!"rejecting selection of {text.utf8ByteSize} bytes"⟩]
  | .ok () =>
    let stream := TokenStream.ofText text
    let lexed := s!"lexed {quote text} into {stream.length} tokens"
    let rejections :=
      match stream.parse with
      | .ok _ => []
      | .error error =>
        [LogRecord.mk .debug parseTarget s!"rejecting selection {quote text}: {error.message}"]
    ⟨.trace, parseTarget, lexed⟩ :: rejections

end FieldSelection
