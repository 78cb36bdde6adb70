import FieldSelection.Node
import FieldSelection.SyntaxError
import FieldSelection.Token.Stream

/-!
Contract: reading a selection from a stream of lexemes.

Owns:
- the four productions

      selection = selector ("," selector)*
      selector  = field ("/" field)*
      field     = name [ "(" selection ")" ]
      name      = word | "*"

- `ParseFailure`, which tells a production that does not begin at the stream from one
  that has begun and cannot go on;
- `TokenStream.parse`, which reads a whole stream as one selection.

Does not own: the lexemes of a text, or the limit on its length.

A production reads as far as it can and never gives a token back: after an
opening parenthesis, a slash or a comma it is committed to what has to follow.
Steps of a chain are gathered to the left, alternatives in order. Each result
carries the proof that it is shorter than what was read, and so the recursion
ends. Both loops keep what they have read in an accumulator, so long lists need
no deep recursion.
-/

set_option autoImplicit false

namespace FieldSelection

/-- Whether another reading of the same stream may still be tried. -/
inductive Severity where
  /-- Nothing was read: the production does not begin here. -/
  | recoverable
  /-- Something was read that only this production can begin with. -/
  | committed
deriving DecidableEq, Repr

/-- Where a production stopped, and what it needed there. -/
structure ParseFailure where
  severity : Severity
  stopped : TokenStream
  expected : Expectation
deriving DecidableEq, Repr

/-- A failure within a production that has already begun. -/
def ParseFailure.commit (failure : ParseFailure) : ParseFailure := { failure with severity := .committed }

/-- What stands at the front of a stream. -/
def TokenStream.found (stream : TokenStream) : Found :=
  match stream.first? with
  | some lexeme => .token lexeme.token
  | none => .endOfInput

/-- The error at the front of a stream. -/
def TokenStream.errorHere (stream : TokenStream) (expected : Expectation) : SyntaxError :=
  ⟨stream.offset, expected, stream.found⟩

def ParseFailure.toError (failure : ParseFailure) : SyntaxError :=
  failure.stopped.errorHere failure.expected

/-- A node that was read, and the rest of the stream, which is shorter than `limit`. -/
structure Parsed (limit : Nat) (shape : Shape) where
  node : Node shape
  rest : TokenStream
  shorter : rest.length < limit

/-- The outcome of a production on a stream: a node and a shorter rest, or a failure. -/
abbrev Outcome (limit : Nat) (shape : Shape) := Except ParseFailure (Parsed limit shape)

namespace TokenStream

/-- A word or the wildcard. -/
def parseName (stream : TokenStream) : Outcome stream.length .name :=
  match stream.uncons? with
  | some (.word text, ⟨rest, shorter⟩) => .ok ⟨.ofWord (.literal text), rest, shorter⟩
  | some (.wildcard, ⟨rest, shorter⟩) => .ok ⟨.ofWildcard .star, rest, shorter⟩
  | _ => .error ⟨.recoverable, stream, .fieldName⟩

mutual

/-- A name, and a selection in parentheses if one is opened. -/
def parseField (stream : TokenStream) : Outcome stream.length .field :=
  match stream.parseName with
  | .error failure => .error failure
  | .ok ⟨name, afterName, nameRead⟩ =>
    match afterName.accept? .openParen with
    | none => .ok ⟨.ofName name, afterName, nameRead⟩
    | some ⟨inner, opened⟩ =>
      match inner.parseSelection with
      | .error failure => .error failure.commit
      | .ok ⟨body, afterBody, bodyRead⟩ =>
        match afterBody.accept? .closeParen with
        | none => .error ⟨.committed, afterBody, .closeParen⟩
        | some ⟨rest, closed⟩ => .ok ⟨.ofSubSelection (.scope name body), rest, by omega⟩
termination_by (stream.length, 0)

/-- A field, and more steps as long as a slash follows. -/
def parseSelector (stream : TokenStream) : Outcome stream.length .selector :=
  match stream.parseField with
  | .error failure => .error failure
  | .ok ⟨field, rest, fieldRead⟩ => rest.parseSteps (.ofField field) fieldRead
termination_by (stream.length, 1)

/-- More steps of the chain `init`, as long as a slash follows. -/
def parseSteps
    (stream : TokenStream)
    (init : Selector)
    {limit : Nat}
    (read : stream.length < limit) :
    Outcome limit .selector :=
  match stream.accept? .slash with
  | none => .ok ⟨init, stream, read⟩
  | some ⟨inner, separated⟩ =>
    match inner.parseField with
    | .error failure => .error failure.commit
    | .ok ⟨last, rest, fieldRead⟩ =>
      rest.parseSteps (.ofChain (.slash init last)) (by omega)
termination_by (stream.length, 0)

/-- A selector, and more alternatives as long as a comma follows. -/
def parseSelection (stream : TokenStream) : Outcome stream.length .selection :=
  match stream.parseSelector with
  | .error failure => .error failure
  | .ok ⟨first, rest, selectorRead⟩ => rest.parseAlternatives [] first selectorRead
termination_by (stream.length, 2)

/-- More alternatives after `latest` and those before it, newest first, as long as a comma follows. -/
def parseAlternatives
    (stream : TokenStream)
    (older : List Selector)
    (latest : Selector)
    {limit : Nat}
    (read : stream.length < limit) :
    Outcome limit .selection :=
  match stream.accept? .comma with
  | none => .ok ⟨Selection.prepend older (.only latest), stream, read⟩
  | some ⟨inner, separated⟩ =>
    match inner.parseSelector with
    | .error failure => .error failure.commit
    | .ok ⟨next, rest, selectorRead⟩ =>
      rest.parseAlternatives (latest :: older) next (by omega)
termination_by (stream.length, 0)

end

/-- Reads the whole stream as one selection. -/
def parse (stream : TokenStream) : Except SyntaxError Selection :=
  match stream.parseSelection with
  | .error failure => .error failure.toError
  | .ok ⟨selection, rest, _⟩ =>
    if rest.length = 0 then .ok selection else .error (rest.errorHere .separatorOrEnd)

end TokenStream

end FieldSelection
