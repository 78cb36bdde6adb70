import FieldSelection.Node.Tokens
import FieldSelection.Parser
import FieldSelection.Parser.Scan
import FieldSelection.Proofs.Token.Reading

/-!
Contract: how far a scan gets, and where it stops.

Owns:
- `ScanState.steps?`, the state after several tokens, and `TokenStream.scanFrom`;
- `ScanState.Refuses`, the states that cannot go on with what is left;
- `Node.ending`, the mode of the scan after the tokens of a node.

Does not own: the comparison with the productions (`FieldSelection.Proofs.Parser.Productions`).

Main statements: a scan fails exactly where the tokens read so far lead to a state
that refuses the rest, and the tokens of a tree lead from the need of a name back
to the same depth.
-/

set_option autoImplicit false

namespace FieldSelection

namespace ScanState

/-- The state after tokens one after another; `none` if one of them cannot come. -/
def steps? (state : ScanState) (tokens : List Token) : Option ScanState :=
  tokens.foldlM ScanState.step? state

/-- The state cannot go on with the tokens, nor end before them if there are none. -/
def Refuses (state : ScanState) : List Token → Prop
  | [] => state.complete = false
  | token :: _ => state.step? token = none

theorem steps?_cons
    (state : ScanState)
    (token : Token)
    (tokens : List Token) :
    state.steps? (token :: tokens) = (state.step? token).bind fun next => next.steps? tokens :=
  rfl

theorem steps?_append
    (state : ScanState)
    (front back : List Token) :
    state.steps? (front ++ back) = (state.steps? front).bind fun next => next.steps? back :=
  List.foldlM_append

theorem steps?_append_of_eq_some
    {state next : ScanState}
    {front : List Token}
    (led : state.steps? front = some next)
    (back : List Token) :
    state.steps? (front ++ back) = next.steps? back := by
  rw [steps?_append, led]
  rfl

theorem step?_openParen
    (depth : Nat) :
    step? ⟨.afterName, depth⟩ .openParen = some ⟨.needName, depth + 1⟩ :=
  rfl

theorem steps?_separator
    {mode : ScanMode}
    {token : Token}
    (depth : Nat)
    (named : mode ≠ .needName)
    (separator : token = .comma ∨ token = .slash)
    (tokens : List Token) :
    steps? ⟨mode, depth⟩ (token :: tokens) = steps? ⟨.needName, depth⟩ tokens := by
  cases mode with
  | needName => contradiction
  | afterName => rcases separator with rfl | rfl <;> rfl
  | afterGroup => rcases separator with rfl | rfl <;> rfl

theorem step?_closeParen
    {mode : ScanMode}
    (depth : Nat)
    (named : mode ≠ .needName) :
    step? ⟨mode, depth + 1⟩ .closeParen = some ⟨.afterGroup, depth⟩ := by
  cases mode with
  | needName => contradiction
  | afterName => rfl
  | afterGroup => rfl

theorem expected_of_named
    {mode : ScanMode}
    (depth : Nat)
    (named : mode ≠ .needName) :
    expected ⟨mode, depth⟩ = if depth = 0 then .separatorOrEnd else .closeParen := by
  cases mode with
  | needName => contradiction
  | afterName => cases depth <;> rfl
  | afterGroup => cases depth <;> rfl

/-- From every state, tokens lead to one that refuses what is left, or to one that may end. -/
theorem exists_refusal_or_end
    (state : ScanState)
    (tokens : List Token) :
    (∃ front back next,
        tokens = front ++ back ∧ state.steps? front = some next ∧ next.Refuses back)
      ∨ ∃ next, state.steps? tokens = some next ∧ next.complete = true := by
  induction tokens generalizing state with
  | nil =>
      cases complete : state.complete with
      | false =>
          left
          exact ⟨[], [], state, rfl, rfl, complete⟩
      | true =>
          right
          exact ⟨state, rfl, complete⟩
  | cons token tokens inductionHypothesis =>
      cases stepped : state.step? token with
      | none =>
          left
          exact ⟨[], token :: tokens, state, rfl, rfl, stepped⟩
      | some after =>
          have ledOn : ∀ front, state.steps? (token :: front) = after.steps? front := by
            intro front
            rw [steps?_cons, stepped]
            rfl
          rcases inductionHypothesis after with refused | ended
          · left
            rcases refused with ⟨front, back, next, split, led, refuses⟩
            refine ⟨token :: front, back, next, ?_, ?_, refuses⟩
            · rw [split]
              rfl
            · rw [ledOn]
              exact led
          · right
            rcases ended with ⟨next, led, complete⟩
            refine ⟨next, ?_, complete⟩
            rw [ledOn]
            exact led

end ScanState

namespace TokenStream

/-- The first error of a scan that enters the stream in a given state. -/
def scanFrom (stream : TokenStream) (state : ScanState) : Option SyntaxError :=
  ScanState.run stream.eof state stream.lexemes

theorem scan_eq_scanFrom
    (stream : TokenStream) :
    stream.scan = stream.scanFrom {} :=
  rfl

/-- The scan of a stream is the scan of its rest, in the state that what was read leads to. -/
theorem scanFrom_of_reads
    {stream rest : TokenStream}
    {tokens : List Token}
    {state next : ScanState}
    (read : stream.Reads tokens rest)
    (led : state.steps? tokens = some next) :
    stream.scanFrom state = rest.scanFrom next := by
  obtain ⟨lexemes, rfl, rfl⟩ := read
  induction lexemes generalizing state with
  | nil =>
      obtain rfl : state = next := Option.some.inj led
      rfl
  | cons lexeme lexemes inductionHypothesis =>
      rw [List.map_cons, ScanState.steps?_cons] at led
      obtain ⟨after, stepped, ledOn⟩ := Option.bind_eq_some_iff.1 led
      rw [← inductionHypothesis ledOn]
      simp [scanFrom, ScanState.run, stepped]

theorem scanFrom_of_refuses
    {stream : TokenStream}
    {state : ScanState}
    (refuses : state.Refuses stream.tokens) :
    stream.scanFrom state = some (stream.errorHere state.expected) := by
  obtain ⟨lexemes, eof⟩ := stream
  cases lexemes with
  | nil =>
      have incomplete : state.complete = false := refuses
      simp [scanFrom, ScanState.run, incomplete, errorHere, offset, found, first?]
  | cons lexeme lexemes =>
      have stuck : state.step? lexeme.token = none := refuses
      simp [scanFrom, ScanState.run, stuck, errorHere, offset, found, first?]

theorem scanFrom_of_complete
    {stream : TokenStream}
    {state next : ScanState}
    (led : state.steps? stream.tokens = some next)
    (complete : next.complete = true) :
    stream.scanFrom state = none := by
  rw [scanFrom_of_reads stream.reads_tokens led]
  simp [scanFrom, ScanState.run, complete]

/-- A scan fails where what was read leads to a state that refuses the rest. -/
theorem scanFrom_eq_some_iff
    {stream : TokenStream}
    {state : ScanState}
    {error : SyntaxError} :
    stream.scanFrom state = some error
      ↔ ∃ tokens rest next,
          stream.Reads tokens rest ∧ state.steps? tokens = some next
            ∧ next.Refuses rest.tokens ∧ error = rest.errorHere next.expected := by
  constructor
  · intro failed
    rcases state.exists_refusal_or_end stream.tokens with refused | ended
    · rcases refused with ⟨front, back, next, split, led, refuses⟩
      obtain ⟨rest, read, left⟩ := exists_reads_of_tokens_eq split
      rw [← left] at refuses
      rw [scanFrom_of_reads read led, scanFrom_of_refuses refuses] at failed
      exact ⟨front, rest, next, read, led, refuses, (Option.some.inj failed).symm⟩
    · rcases ended with ⟨next, led, complete⟩
      rw [scanFrom_of_complete led complete] at failed
      cases failed
  · intro stopped
    rcases stopped with ⟨tokens, rest, next, read, led, refuses, reported⟩
    rw [scanFrom_of_reads read led, scanFrom_of_refuses refuses, reported]

theorem scanFrom_eq_none_iff
    {stream : TokenStream}
    {state : ScanState} :
    stream.scanFrom state = none
      ↔ ∃ next, state.steps? stream.tokens = some next ∧ next.complete = true := by
  constructor
  · intro passed
    rcases state.exists_refusal_or_end stream.tokens with refused | ended
    · rcases refused with ⟨front, back, next, split, led, refuses⟩
      obtain ⟨rest, read, left⟩ := exists_reads_of_tokens_eq split
      rw [← left] at refuses
      rw [scanFrom_of_reads read led, scanFrom_of_refuses refuses] at passed
      cases passed
    · exact ended
  · intro ended
    rcases ended with ⟨next, led, complete⟩
    exact scanFrom_of_complete led complete

end TokenStream

/-! ## The scan of a tree -/

/-- The mode of a scan that has passed the tokens of a node. -/
def Node.ending : {shape : Shape} → Node shape → ScanMode
  | _, .literal _ => .afterName
  | _, .star => .afterName
  | _, .ofWord _ => .afterName
  | _, .ofWildcard _ => .afterName
  | _, .ofName _ => .afterName
  | _, .ofSubSelection _ => .afterGroup
  | _, .scope _ _ => .afterGroup
  | _, .ofField field => field.ending
  | _, .ofChain chain => chain.ending
  | _, .slash _ last => last.ending
  | _, .only alternative => alternative.ending
  | _, .cons _ rest => rest.ending

theorem Node.ending_ne_needName
    {shape : Shape}
    (node : Node shape) :
    node.ending ≠ .needName := by
  induction node with
  | ofField _ inductionHypothesis
  | ofChain _ inductionHypothesis
  | slash _ _ _ inductionHypothesis
  | only _ inductionHypothesis
  | cons _ _ _ inductionHypothesis => exact inductionHypothesis
  | _ => simp [ending]

theorem Name.ending_eq
    (name : Name) :
    name.ending = .afterName := by
  cases name <;> rfl

/-- The tokens of a node lead from the need of a name to its ending, at the same depth. -/
theorem Node.steps?_tokens
    {shape : Shape}
    (node : Node shape)
    (depth : Nat) :
    ScanState.steps? ⟨.needName, depth⟩ node.tokens = some ⟨node.ending, depth⟩ := by
  induction node generalizing depth with
  | literal text => rfl
  | star => rfl
  | ofWord word inductionHypothesis => cases word; exact inductionHypothesis depth
  | ofWildcard wildcard inductionHypothesis => cases wildcard; exact inductionHypothesis depth
  | ofName name inductionHypothesis =>
      have nameLed := inductionHypothesis depth
      rwa [Name.ending_eq] at nameLed
  | ofSubSelection subSelection inductionHypothesis =>
      cases subSelection
      exact inductionHypothesis depth
  | scope name body nameHypothesis bodyHypothesis =>
      have nameLed := nameHypothesis depth
      rw [Name.ending_eq] at nameLed
      rw [tokens_scope, ScanState.steps?_append_of_eq_some nameLed, ScanState.steps?_cons,
        ScanState.step?_openParen, Option.bind_some,
        ScanState.steps?_append_of_eq_some (bodyHypothesis (depth + 1)), ScanState.steps?_cons,
        ScanState.step?_closeParen depth body.ending_ne_needName]
      rfl
  | ofField field inductionHypothesis => exact inductionHypothesis depth
  | ofChain chain inductionHypothesis => exact inductionHypothesis depth
  | slash init last initHypothesis lastHypothesis =>
      rw [tokens, ScanState.steps?_append_of_eq_some (initHypothesis depth),
        ScanState.steps?_separator depth init.ending_ne_needName (.inr rfl)]
      exact lastHypothesis depth
  | only alternative inductionHypothesis => exact inductionHypothesis depth
  | cons alternative rest alternativeHypothesis restHypothesis =>
      rw [tokens, ScanState.steps?_append_of_eq_some (alternativeHypothesis depth),
        ScanState.steps?_separator depth alternative.ending_ne_needName (.inl rfl)]
      exact restHypothesis depth

end FieldSelection
