import FieldSelection.Token

/-!
Contract: streams of lexemes, and the cuts that make shorter ones.

Owns:
- `TokenStream`, the lexemes still to be read together with the offset that
  stands for their end;
- `TokenStream.offset`, the place that an error at the front of a stream names;
- `Cut`, the ways of keeping a contiguous part of a stream, each defined only
  within the bounds of the stream.

Does not own: the making of a stream from a text.

A cut never changes `eof`: a stream of which the last lexemes were cut off
still ends where the whole text ends.
-/

set_option autoImplicit false

namespace FieldSelection

/-- The lexemes still to be read, and the offset to report once there are none. -/
structure TokenStream where
  lexemes : List Lexeme
  eof : Nat
deriving DecidableEq, Repr, Inhabited

/-- A way to keep a contiguous part of a stream. -/
inductive Cut where
  /-- Keep the first lexemes. -/
  | take (count : Nat)
  /-- Split, and keep the front half. -/
  | splitFront (count : Nat)
  /-- Split, and keep the back half. -/
  | splitBack (count : Nat)
  /-- Keep the lexemes from one position up to another. -/
  | slice (start stop : Nat)
  /-- Keep the lexemes up to a position. -/
  | sliceTo (stop : Nat)
  /-- Keep the lexemes from a position on. -/
  | sliceFrom (start : Nat)
  /-- Keep everything. -/
  | whole
deriving DecidableEq, Repr

namespace TokenStream

def length (stream : TokenStream) : Nat := stream.lexemes.length

def tokens (stream : TokenStream) : List Token := stream.lexemes.map Lexeme.token

/-- The first lexeme, unless the stream is at its end. -/
def first? (stream : TokenStream) : Option Lexeme := stream.lexemes.head?

/-- Where the stream stands: at its first lexeme, or at the end of the text. -/
def offset (stream : TokenStream) : Nat :=
  match stream.first? with
  | some lexeme => lexeme.offset
  | none => stream.eof

/-- The token at a position within the stream. -/
def token? (stream : TokenStream) (position : Nat) : Option Token := stream.tokens[position]?

/-- The position of the first lexeme that carries the token. -/
def position? (stream : TokenStream) (token : Token) : Option Nat := stream.tokens.idxOf? token

/-- The tokens with their positions. -/
def indexed (stream : TokenStream) : List (Nat × Token) :=
  stream.tokens.zipIdx.map fun (token, position) => (position, token)

/-- The first lexemes, as many as asked for. -/
def take? (stream : TokenStream) (count : Nat) : Option TokenStream :=
  if count ≤ stream.length then some { stream with lexemes := stream.lexemes.take count } else none

/-- The lexemes after the first ones, and the first ones. -/
def split? (stream : TokenStream) (count : Nat) : Option (TokenStream × TokenStream) :=
  if count ≤ stream.length then
    let (front, back) := stream.lexemes.splitAt count
    some ({ stream with lexemes := back }, { stream with lexemes := front })
  else
    none

/-- The lexemes from `start` up to, and without, `stop`. -/
def slice? (stream : TokenStream) (start stop : Nat) : Option TokenStream :=
  if start ≤ stop ∧ stop ≤ stream.length then
    some { stream with lexemes := (stream.lexemes.take stop).drop start }
  else
    none

def sliceTo? (stream : TokenStream) (stop : Nat) : Option TokenStream := stream.slice? 0 stop

def sliceFrom? (stream : TokenStream) (start : Nat) : Option TokenStream :=
  stream.slice? start stream.length

/-- The count itself if the stream holds so many lexemes, else how many more are needed. -/
def sliceIndex (stream : TokenStream) (count : Nat) : Except Nat Nat :=
  if count ≤ stream.length then .ok count else .error (count - stream.length)

/-- The part of the stream that a cut keeps; `none` if the cut leaves the bounds of the stream. -/
def cut? (stream : TokenStream) : Cut → Option TokenStream
  | .take count => stream.take? count
  | .splitFront count => (stream.split? count).map Prod.snd
  | .splitBack count => (stream.split? count).map Prod.fst
  | .slice start stop => stream.slice? start stop
  | .sliceTo stop => stream.sliceTo? stop
  | .sliceFrom start => stream.sliceFrom? start
  | .whole => some stream

/-- Cuts one after another; a cut out of bounds leaves the stream as it was. -/
def cutAll (stream : TokenStream) (cuts : List Cut) : TokenStream :=
  cuts.foldl (fun current cut => (current.cut? cut).getD current) stream

theorem length_rest_lt
    {lexeme : Lexeme}
    {rest : List Lexeme}
    {eof : Nat} :
    length ⟨rest, eof⟩ < length ⟨lexeme :: rest, eof⟩ :=
  Nat.lt_succ_self _

/-- A stream that is shorter than a given one. -/
abbrev Shorter (stream : TokenStream) : Type := { rest : TokenStream // rest.length < stream.length }

/-- The first token and the rest of the stream, unless the stream is at its end. -/
def uncons? : (stream : TokenStream) → Option (Token × stream.Shorter)
  | ⟨[], _⟩ => none
  | ⟨lexeme :: rest, eof⟩ => some (lexeme.token, ⟨⟨rest, eof⟩, length_rest_lt⟩)

/-- The rest of the stream after one given token, if the stream begins with it. -/
def accept? (stream : TokenStream) (token : Token) : Option stream.Shorter :=
  match stream.uncons? with
  | some (front, rest) => if front = token then some rest else none
  | none => none

/-- A token is accepted exactly at the front of the stream, and only that is dropped. -/
theorem accept?_eq_some_iff
    {stream : TokenStream}
    {token : Token}
    {rest : stream.Shorter} :
    stream.accept? token = some rest
      ↔ ∃ offset, stream = ⟨⟨token, offset⟩ :: rest.val.lexemes, rest.val.eof⟩ := by
  obtain ⟨lexemes, eof⟩ := stream
  obtain ⟨rest, shorter⟩ := rest
  cases lexemes with
  | nil => simp [accept?, uncons?]
  | cons lexeme lexemes =>
      obtain ⟨front, offset⟩ := lexeme
      obtain ⟨restLexemes, restEof⟩ := rest
      by_cases same : front = token <;> simp [accept?, uncons?, same, Subtype.ext_iff]

end TokenStream

end FieldSelection
