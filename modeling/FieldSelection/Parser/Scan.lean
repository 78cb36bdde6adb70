import FieldSelection.SyntaxError
import FieldSelection.Token.Stream

/-!
Contract: checking a stream of lexemes in one pass with a mode and a counter.

Owns:
- `ScanState`, what may come next and how many parentheses are open;
- `ScanState.step?`, one token;
- `TokenStream.scan`, the whole stream: nothing, or the first error.

Does not own: trees; the scan only says whether there is one.

After a name or a group the scan waits for a separator, or for the end of the
group. A parenthesis opens a group after a name only.
-/

set_option autoImplicit false

namespace FieldSelection

inductive ScanMode where
  | needName
  | afterName
  | afterGroup
deriving DecidableEq, Repr

structure ScanState where
  mode : ScanMode := .needName
  depth : Nat := 0
deriving DecidableEq, Repr

namespace ScanState

/-- The state after a token; `none` if the token cannot come here. -/
def step? (state : ScanState) (token : Token) : Option ScanState :=
  match state.mode, token with
  | .needName, .word _ | .needName, .wildcard => some { state with mode := .afterName }
  | .needName, _ => none
  | _, .comma | _, .slash => some { state with mode := .needName }
  | _, .closeParen =>
    if state.depth = 0 then none else some ⟨.afterGroup, state.depth - 1⟩
  | .afterName, .openParen => some ⟨.needName, state.depth + 1⟩
  | _, _ => none

/-- Whether the text may end here. -/
def complete (state : ScanState) : Bool := state.mode ≠ .needName && state.depth = 0

/-- What an error in this state expects. -/
def expected (state : ScanState) : Expectation :=
  match state.mode, state.depth with
  | .needName, _ => .fieldName
  | _, 0 => .separatorOrEnd
  | _, _ + 1 => .closeParen

/-- Scans lexemes from a state on; the answer is the first error, if there is one. -/
def run (eof : Nat) : ScanState → List Lexeme → Option SyntaxError
  | state, [] =>
    if state.complete then none else some ⟨eof, state.expected, .endOfInput⟩
  | state, ⟨token, offset⟩ :: rest =>
    match state.step? token with
    | some next => next.run eof rest
    | none => some ⟨offset, state.expected, .token token⟩

end ScanState

def TokenStream.scan (stream : TokenStream) : Option SyntaxError :=
  ScanState.run stream.eof {} stream.lexemes

end FieldSelection
