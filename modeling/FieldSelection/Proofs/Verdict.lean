import FieldSelection.Parse
import FieldSelection.Proofs.Parser.Completeness
import FieldSelection.Proofs.Token.Lexing

/-!
Contract: the verdict on a text, told from its tokens alone.

Owns:
- acceptance, as an equation between tokens and as the end of a scan;
- `Found.first`, and refusal as a split of the tokens into those that were read and
  those that cannot follow;
- the same steps of the scan for tokens of one kind.

Does not own: which texts have given tokens (`FieldSelection.Proofs.Token.Lexing`).
-/

set_option autoImplicit false

namespace FieldSelection

/-- What stands first among the tokens that are left. -/
def Found.first : List Token → Found
  | [] => .endOfInput
  | front :: _ => .token front

theorem Token.describe_ne_endOfInput
    (token : Token) :
    token.describe ≠ "end of input" := by
  cases token with
  | word text =>
      intro same
      have firstCharacter := congrArg (fun described => described.toList.head?) same
      change ("word `" ++ text ++ "`").toList.head? = some 'e' at firstCharacter
      simp at firstCharacter
  | _ => decide

theorem Found.text_first_eq_iff
    {tokens : List Token} :
    (Found.first tokens).text = "end of input" ↔ tokens = [] := by
  cases tokens with
  | nil => simp [Found.first, Found.text]
  | cons token tokens => simpa [Found.first, Found.text] using token.describe_ne_endOfInput

theorem TokenStream.found_eq_first
    (stream : TokenStream) :
    stream.found = Found.first stream.tokens := by
  obtain ⟨lexemes, eof⟩ := stream
  cases lexemes with
  | nil => rfl
  | cons lexeme lexemes => rfl

/-- The scan sees the kind of a token, and not the text of a word. -/
theorem ScanState.step?_eq_of_sameKind
    {left right : Token}
    (same : left.SameKind right)
    (state : ScanState) :
    state.step? left = state.step? right := by
  rcases same with equal | words
  · rw [equal]
  · obtain ⟨leftWord, rightWord⟩ := words
    obtain ⟨mode, depth⟩ := state
    cases left with
    | word leftText =>
        cases right with
        | word rightText => cases mode <;> rfl
        | _ => cases rightWord
    | _ => cases leftWord

theorem parse_eq_ok_iff_tokens
    {text : String}
    {selection : Selection} :
    parse text = .ok selection ↔ Token.ofText text = selection.tokens := by
  rw [parse, TokenStream.parse_eq_ok_iff_tokens, TokenStream.tokens_ofText]

/-- A text is accepted exactly if its tokens lead the scan to a state in which it may end. -/
theorem exists_parse_eq_ok_iff
    {text : String} :
    (∃ selection, parse text = .ok selection)
      ↔ ∃ final, ScanState.steps? {} (Token.ofText text) = some final ∧ final.complete = true := by
  rw [← TokenStream.tokens_ofText, ← TokenStream.scanFrom_eq_none_iff,
    ← TokenStream.scan_eq_scanFrom]
  exact TokenStream.exists_parse_eq_ok_iff_scan

/-- A text is refused where its tokens so far lead to a state that refuses the others. -/
theorem parse_eq_error_iff_split
    {text : String}
    {error : SyntaxError} :
    parse text = .error error
      ↔ ∃ front back state,
          Token.ofText text = front ++ back
            ∧ ScanState.steps? {} front = some state
            ∧ state.Refuses back
            ∧ error = ⟨(Token.textOf front).utf8ByteSize, state.expected, Found.first back⟩ := by
  rw [parse, TokenStream.parse_eq_error_iff_scan, TokenStream.scan_eq_scanFrom,
    TokenStream.scanFrom_eq_some_iff]
  constructor
  · intro stopped
    obtain ⟨front, rest, state, read, led, refuses, reported⟩ := stopped
    refine ⟨front, rest.tokens, state, ?_, led, refuses, ?_⟩
    · rw [← TokenStream.tokens_ofText, read.tokens_eq]
    · rw [reported, TokenStream.errorHere, TokenStream.offset_of_reads_ofText read,
        TokenStream.found_eq_first]
  · intro split
    obtain ⟨front, back, state, lexed, led, refuses, reported⟩ := split
    rw [← TokenStream.tokens_ofText] at lexed
    obtain ⟨rest, read, left⟩ := TokenStream.exists_reads_of_tokens_eq lexed
    rw [← left] at refuses
    refine ⟨front, rest, state, read, led, refuses, ?_⟩
    rw [reported, TokenStream.errorHere, TokenStream.offset_of_reads_ofText read,
      TokenStream.found_eq_first, left]

end FieldSelection
