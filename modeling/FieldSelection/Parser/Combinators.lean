import FieldSelection.Grammar
import FieldSelection.Parser

/-!
Contract: the productions, put together from parsers of their parts.

Owns:
- `StreamParser`, which reads a value from the front of a stream or says why it stops;
- one part after another, an optional part, a repetition, and the commitment to a part;
- `Production`, the four productions as one family: each as it runs, and each as the
  combination of parts that its line of the grammar says.

Does not own: the recursion through the productions (`FieldSelection.Parser`).

An optional part or a repetition takes a recoverable stop for the absence of the part, and
goes on from where the part would have begun. All other stops are passed on. A part behind a
token of its own is guarded: once the token was read, no stop is recoverable.
-/

set_option autoImplicit false

namespace FieldSelection

/-- Why a parser stopped, whether it has begun, and the words for what it needed. -/
structure Stop where
  severity : Severity
  place : TokenStream
  needed : String
deriving DecidableEq, Repr

/-- A stop behind tokens that no other reading of the stream begins with. -/
def Stop.commit (stop : Stop) : Stop := { stop with severity := .committed }

/-- A value that was read, and the rest of the stream, which is no longer than `limit`. -/
structure Taken (limit : Nat) (α : Type) where
  value : α
  rest : TokenStream
  within : rest.length ≤ limit

/-- The value changed, and the rest as one of a longer stream. -/
def Taken.lift
    {α β : Type}
    {inner outer : Nat}
    (change : α → β)
    (bound : inner ≤ outer)
    (taken : Taken inner α) :
    Taken outer β :=
  ⟨change taken.value, taken.rest, Nat.le_trans taken.within bound⟩

/-- Reads a value from the front of a stream, and leaves a rest that is no longer. -/
abbrev StreamParser (α : Type) := (stream : TokenStream) → Except Stop (Taken stream.length α)

/-- How a message names the token that was needed. -/
def Token.needed : Token → String
  | .word _ => Expectation.fieldName.text
  | token => token.describe

theorem TokenStream.length_le_of_split?_eq_some
    {stream rest front : TokenStream}
    {count : Nat}
    (split : stream.split? count = some (rest, front)) :
    rest.length ≤ stream.length := by
  unfold split? at split
  split at split
  · simp only [List.splitAt_eq, Option.some.injEq, Prod.mk.injEq] at split
    rw [← split.1]
    simp [length]
  · cases split

namespace StreamParser

variable {α β : Type}

/-- One given token. -/
def token (token : Token) : StreamParser Token := fun stream =>
  match stream.accept? token with
  | some ⟨rest, shorter⟩ => .ok ⟨token, rest, Nat.le_of_lt shorter⟩
  | none => .error ⟨.recoverable, stream, token.needed⟩

/-- So many lexemes, whatever they are. -/
def take (count : Nat) : StreamParser TokenStream := fun stream =>
  match split : stream.split? count with
  | some (rest, front) => .ok ⟨front, rest, TokenStream.length_le_of_split?_eq_some split⟩
  | none => .error ⟨.recoverable, stream, "more input"⟩

/-- The value of a part, changed by a function. -/
def map (change : α → β) (part : StreamParser α) : StreamParser β := fun stream =>
  (part stream).map (Taken.lift change (Nat.le_refl _))

/-- Two parts, one after the other. -/
def pair (first : StreamParser α) (second : StreamParser β) : StreamParser (α × β) := fun stream =>
  match first stream with
  | .error stop => .error stop
  | .ok ⟨left, middle, within⟩ => (second middle).map (Taken.lift (left, ·) within)

/-- The second of two parts. -/
def preceded (first : StreamParser α) (second : StreamParser β) : StreamParser β :=
  (first.pair second).map Prod.snd

/-- The first of two parts. -/
def terminated (first : StreamParser α) (second : StreamParser β) : StreamParser α :=
  (first.pair second).map Prod.fst

/-- A part that has to come. -/
def commit (part : StreamParser α) : StreamParser α := fun stream =>
  (part stream).mapError Stop.commit

/-- A part that may be absent. -/
def opt (part : StreamParser α) : StreamParser (Option α) := fun stream =>
  match part stream with
  | .error ⟨.recoverable, _, _⟩ => .ok ⟨none, stream, Nat.le_refl _⟩
  | .error stop => .error stop
  | .ok taken => .ok (taken.lift some (Nat.le_refl _))

/-- A part as often as it comes. A part that reads nothing would come for ever, and is refused. -/
def many (part : StreamParser α) (stream : TokenStream) :
    Except Stop (Taken stream.length (List α)) :=
  match part stream with
  | .error ⟨.recoverable, _, _⟩ => .ok ⟨[], stream, Nat.le_refl _⟩
  | .error stop => .error stop
  | .ok ⟨value, middle, within⟩ =>
    if middle.length < stream.length then
      (part.many middle).map (Taken.lift (value :: ·) within)
    else
      .error ⟨.recoverable, stream, "a valid token"⟩
termination_by stream.length

/-- A part behind a token, after which it has to come. -/
def guarded (opening : Token) (part : StreamParser α) : StreamParser α :=
  (token opening).preceded part.commit

/-! ## The lines of the grammar -/

/-- `word | "*"` -/
def name : StreamParser Name := fun stream =>
  let missing : Stop := ⟨.recoverable, stream, Expectation.fieldName.text⟩
  match take 1 stream with
  | .error _ => .error missing
  | .ok ⟨front, rest, within⟩ =>
    match front.token? 0 with
    | some (.word text) => .ok ⟨.ofWord (.literal text), rest, within⟩
    | some .wildcard => .ok ⟨.ofWildcard .star, rest, within⟩
    | _ => .error missing

/-- `name [ "(" selection ")" ]` -/
def field (selection : StreamParser Selection) : StreamParser Field :=
  (name.pair (guarded .openParen (selection.terminated (token .closeParen))).opt).map
    fun
    | (name, some body) => .ofSubSelection (.scope name body)
    | (name, none) => .ofName name

/-- `field ("/" field)*` -/
def selector (field : StreamParser Field) : StreamParser Selector :=
  (field.pair (guarded .slash field).many).map fun (head, steps) => Selector.ofSteps head steps

/-- `selector ("," selector)*` -/
def selection (selector : StreamParser Selector) : StreamParser Selection :=
  (selector.pair (guarded .comma selector).many).map
    fun (first, rest) => Selection.ofList first rest

end StreamParser

/-- The outcome of a production, with its failure put into words. -/
def Outcome.told
    {limit : Nat}
    {shape : Shape} :
    Outcome limit shape → Except Stop (Taken limit (Node shape))
  | .error failure => .error ⟨failure.severity, failure.stopped, failure.expected.text⟩
  | .ok ⟨node, rest, shorter⟩ => .ok ⟨node, rest, Nat.le_of_lt shorter⟩

/-- The lines of the grammar. -/
inductive Production where
  | name
  | field
  | selector
  | selection
deriving DecidableEq, Repr

namespace Production

/-- The shape of the nodes that a production reads. -/
abbrev shape : Production → Shape
  | .name => .name
  | .field => .field
  | .selector => .selector
  | .selection => .selection

/-- What a production does with a stream. -/
def run : (production : Production) → (stream : TokenStream) →
    Outcome stream.length production.shape
  | .name, stream => stream.parseName
  | .field, stream => stream.parseField
  | .selector, stream => stream.parseSelector
  | .selection, stream => stream.parseSelection

/-- The production as a part of others. -/
def parser (production : Production) : StreamParser (Node production.shape) :=
  fun stream => (production.run stream).told

/-- The combination of parts that a line of the grammar says. -/
def ofParts : (production : Production) → StreamParser (Node production.shape)
  | .name => .name
  | .field => .field (parser .selection)
  | .selector => .selector (parser .field)
  | .selection => .selection (parser .selector)

end Production

end FieldSelection
