import FieldSelection.Proofs.Node.Folding
import FieldSelection.Proofs.Verdict

/-!
Contract: reading does not depend on the spelling of words or on the places of tokens.

Owns:
- the renaming of the words in tokens and in what an error found;
- the tokens of a tree whose words are renamed;
- the verdict on a stream with renamed words and other places, and on a text that is
  spelled anew.

Does not own: the paths that a renamed tree selects.

The position of an error is chosen for a stream before any renaming of it is. So it
counts tokens, and belongs to the kinds of tokens alone.
-/

set_option autoImplicit false

namespace FieldSelection

/-! ## Renaming -/

/-- The token with the text of a word replaced. -/
def Token.mapWord (respell : String → String) : Token → Token
  | .word text => .word (respell text)
  | token => token

/-- What is found where the words are replaced. -/
def Found.mapWord (respell : String → String) : Found → Found
  | .token read => .token (read.mapWord respell)
  | found => found

theorem Token.sameKind_mapWord
    (respell : String → String)
    (token : Token) :
    (token.mapWord respell).SameKind token := by
  cases token with
  | word text => exact .inr ⟨rfl, rfl⟩
  | _ => exact .inl rfl

theorem Found.first_map_mapWord
    (respell : String → String)
    (tokens : List Token) :
    Found.first (tokens.map (Token.mapWord respell)) = (Found.first tokens).mapWord respell := by
  cases tokens with
  | nil => rfl
  | cons token tokens => rfl

/-- The tokens of a tree are renamed as its words are. -/
theorem Node.tokens_mapWords
    (respell : String → String)
    {shape : Shape}
    (node : Node shape) :
    (node.mapWords respell).tokens = node.tokens.map (Token.mapWord respell) := by
  rw [mapWords, Folder.run_ofLeaves]
  induction node with
  | literal text => rfl
  | star => rfl
  | scope name body nameHypothesis bodyHypothesis =>
      simp [traverseLeaves, tokens, ← nameHypothesis, ← bodyHypothesis, Token.mapWord]
  | slash init last initHypothesis lastHypothesis =>
      simp [traverseLeaves, tokens, ← initHypothesis, ← lastHypothesis, Token.mapWord]
  | cons alternative rest alternativeHypothesis restHypothesis =>
      simp [traverseLeaves, tokens, ← alternativeHypothesis, ← restHypothesis, Token.mapWord]
  | _ _ inductionHypothesis => exact inductionHypothesis

/-! ## The scan -/

namespace ScanState

theorem steps?_map_mapWord
    (respell : String → String)
    (state : ScanState)
    (tokens : List Token) :
    state.steps? (tokens.map (Token.mapWord respell)) = state.steps? tokens := by
  have blind : ∀ (state : ScanState) (token : Token),
      state.step? (token.mapWord respell) = state.step? token := fun state token =>
    step?_eq_of_sameKind (token.sameKind_mapWord respell) state
  rw [steps?, List.foldlM_map]
  simp only [blind]
  rfl

theorem refuses_map_mapWord_iff
    (respell : String → String)
    (state : ScanState)
    (tokens : List Token) :
    state.Refuses (tokens.map (Token.mapWord respell)) ↔ state.Refuses tokens := by
  cases tokens with
  | nil => rfl
  | cons token tokens =>
      rw [List.map_cons, Refuses, Refuses, step?_eq_of_sameKind (token.sameKind_mapWord respell)]

end ScanState

/-! ## Streams -/

namespace TokenStream

/-- The stream from a position on. -/
def after (stream : TokenStream) (position : Nat) : TokenStream :=
  ⟨stream.lexemes.drop position, stream.eof⟩

theorem Reads.eq_after
    {stream rest : TokenStream}
    {tokens : List Token}
    (read : stream.Reads tokens rest) :
    rest = stream.after tokens.length := by
  obtain ⟨lexemes, rfl, rfl⟩ := read
  simp [after]

variable {stream other : TokenStream} {respell : String → String}

theorem parse_eq_ok_of_renamed
    {selection : Selection}
    (renamed : other.tokens = stream.tokens.map (Token.mapWord respell))
    (parsed : stream.parse = .ok selection) :
    other.parse = .ok (selection.mapWords respell) := by
  rw [parse_eq_ok_iff_tokens] at parsed ⊢
  rw [renamed, parsed, Node.tokens_mapWords]

theorem exists_position_of_parse_eq_error
    {error : SyntaxError}
    (failed : stream.parse = .error error) :
    ∃ position ≤ stream.length,
      error = (stream.after position).errorHere error.expected
        ∧ ∀ (respell : String → String) (other : TokenStream),
            other.tokens = stream.tokens.map (Token.mapWord respell) →
              other.parse = .error
                ⟨(other.after position).offset, error.expected, error.found.mapWord respell⟩ := by
  rw [parse_eq_error_iff_scan, scan_eq_scanFrom, scanFrom_eq_some_iff] at failed
  obtain ⟨tokens, rest, state, read, led, refuses, rfl⟩ := failed
  refine ⟨tokens.length, ?_, ?_, ?_⟩
  · have counted := congrArg List.length read.tokens_eq
    simp only [TokenStream.tokens, List.length_map, List.length_append] at counted
    rw [length]
    omega
  · rw [← read.eq_after]
    rfl
  · intro respell other renamed
    -- Under any renaming the part that was read has as many tokens, so the rest begins at the
    -- same position, and the scan stands before it in the same state.
    rw [read.tokens_eq, List.map_append] at renamed
    obtain ⟨otherRest, otherRead, left⟩ := exists_reads_of_tokens_eq renamed
    have place := otherRead.eq_after
    rw [List.length_map] at place
    rw [parse_eq_error_iff_scan, scan_eq_scanFrom, scanFrom_eq_some_iff]
    refine ⟨_, otherRest, state, otherRead, ?_, ?_, ?_⟩
    · rw [ScanState.steps?_map_mapWord]
      exact led
    · rw [left, ScanState.refuses_map_mapWord_iff]
      exact refuses
    · rw [errorHere, errorHere, otherRest.found_eq_first, left, Found.first_map_mapWord,
        ← rest.found_eq_first, ← place]

theorem exists_parse_eq_ok_iff_of_renamed
    (renamed : other.tokens = stream.tokens.map (Token.mapWord respell)) :
    (∃ selection, other.parse = .ok selection) ↔ ∃ selection, stream.parse = .ok selection := by
  constructor
  · rintro ⟨otherSelection, otherParsed⟩
    cases parsed : stream.parse with
    | ok selection => exact ⟨selection, rfl⟩
    | error error =>
        obtain ⟨position, -, -, failed⟩ := exists_position_of_parse_eq_error parsed
        rw [failed respell other renamed] at otherParsed
        cases otherParsed
  · rintro ⟨selection, parsed⟩
    exact ⟨_, parse_eq_ok_of_renamed renamed parsed⟩

end TokenStream

/-! ## Texts -/

theorem Token.Canonical.map_mapWord
    {respell : String → String}
    {tokens : List Token}
    (canonical : Canonical tokens)
    (keepsValid : ∀ word, ValidWord word → ValidWord (respell word)) :
    Canonical (tokens.map (mapWord respell)) := by
  have sameWord : ∀ token : Token, (token.mapWord respell).isWord = token.isWord := fun token =>
    (token.sameKind_mapWord respell).isWord_eq
  constructor
  · intro renamed member
    obtain ⟨token, inTokens, rfl⟩ := List.mem_map.1 member
    have valid := canonical.valid token inTokens
    cases token with
    | word text => exact keepsValid text valid
    | _ => trivial
  · rw [List.isChain_map]
    refine canonical.apart.imp ?_
    intro left right apart leftWord
    rw [sameWord] at leftWord ⊢
    exact apart leftWord

theorem parse_respelled
    {respell : String → String}
    {text : String}
    {selection : Selection}
    (keepsValid : ∀ word, ValidWord word → ValidWord (respell word))
    (parsed : parse text = .ok selection) :
    parse (Token.textOf ((Token.ofText text).map (Token.mapWord respell)))
      = .ok (selection.mapWords respell) := by
  have canonical := (Token.canonical_ofText text).map_mapWord keepsValid
  rw [parse_eq_ok_iff_tokens] at parsed ⊢
  rw [Token.ofText_textOf canonical, parsed, Node.tokens_mapWords]

/-- A stream whose words are renamed, at whatever places, is accepted exactly if the stream itself
is, and then as the tree with its words renamed. Else it fails at the same position for want of the
same, with the renamed token found at its new place. So a text whose words are renamed to valid
words is read as the tree with its words renamed. -/
theorem parse_renamed :
    (∀ (stream other : TokenStream) (respell : String → String),
        other.tokens = stream.tokens.map (Token.mapWord respell) →
          ((∃ selection, other.parse = .ok selection)
              ↔ ∃ selection, stream.parse = .ok selection)
            ∧ ∀ selection, stream.parse = .ok selection →
                other.parse = .ok (selection.mapWords respell))
      ∧ (∀ (stream : TokenStream) (error : SyntaxError), stream.parse = .error error →
          ∃ position ≤ stream.length,
            error = (stream.after position).errorHere error.expected
              ∧ ∀ (respell : String → String) (other : TokenStream),
                  other.tokens = stream.tokens.map (Token.mapWord respell) →
                    other.parse = .error
                      ⟨(other.after position).offset, error.expected, error.found.mapWord respell⟩)
      ∧ ∀ respell : String → String, (∀ word, ValidWord word → ValidWord (respell word)) →
          ∀ (text : String) (selection : Selection), parse text = .ok selection →
            parse (Token.textOf ((Token.ofText text).map (Token.mapWord respell)))
              = .ok (selection.mapWords respell) := by
  refine ⟨?_, fun _ _ => TokenStream.exists_position_of_parse_eq_error, ?_⟩
  · intro stream other respell renamed
    exact ⟨TokenStream.exists_parse_eq_ok_iff_of_renamed renamed,
      fun _ => TokenStream.parse_eq_ok_of_renamed renamed⟩
  · intro respell keepsValid text selection
    exact parse_respelled keepsValid

theorem parse_renamed_to_reserved_words :
    TokenStream.parse ⟨[⟨.word "*", 9⟩, ⟨.slash, 3⟩, ⟨.word "*", 1⟩], 0⟩
        = .ok (Node.mapWords (fun _ => "*") (.only (.ofChain (.slash
            (.ofField (.ofName (.ofWord (.literal "a"))))
            (.ofName (.ofWord (.literal "b")))))))
      ∧ (∃ position ≤ 2,
          TokenStream.parse ⟨[⟨.word "*", 5⟩, ⟨.word "*", 9⟩], 4⟩
            = .error ⟨TokenStream.offset (TokenStream.after ⟨[⟨.word "*", 5⟩, ⟨.word "*", 9⟩], 4⟩
                position), .separatorOrEnd, .token (.word "*")⟩)
      ∧ parse (Token.textOf ((Token.ofText "é/*").map (Token.mapWord (· ++ "c"))))
          = .ok (Node.mapWords (· ++ "c") (.only (.ofChain (.slash
              (.ofField (.ofName (.ofWord (.literal "é"))))
              (.ofName (.ofWildcard .star)))))) := by
  refine ⟨?_, ?_, ?_⟩
  · have parsed : TokenStream.parse ⟨[⟨.word "a", 0⟩, ⟨.slash, 1⟩, ⟨.word "b", 2⟩], 3⟩
        = .ok (.only (.ofChain (.slash (.ofField (.ofName (.ofWord (.literal "a"))))
            (.ofName (.ofWord (.literal "b")))))) :=
      TokenStream.parse_eq_ok_iff_tokens.2 rfl
    exact (parse_renamed.1 _ _ (fun _ => "*") rfl).2 _ parsed
  · have failed : TokenStream.parse ⟨[⟨.word "a", 0⟩, ⟨.word "b", 0⟩], 0⟩
        = .error ⟨0, .separatorOrEnd, .token (.word "b")⟩ :=
      TokenStream.parse_eq_error_iff_scan.2 rfl
    obtain ⟨position, within, -, renamedFails⟩ := parse_renamed.2.1 _ _ failed
    exact ⟨position, within, renamedFails (fun _ => "*") _ rfl⟩
  · have parsed : parse "é/*" = .ok (.only (.ofChain (.slash
        (.ofField (.ofName (.ofWord (.literal "é")))) (.ofName (.ofWildcard .star))))) :=
      parse_eq_ok_iff_tokens.2 (by decide)
    have keepsValid : ∀ word, ValidWord word → ValidWord (word ++ "c") := by
      intro word valid
      refine ⟨by simp, ?_⟩
      intro character member
      rw [String.toList_append, List.mem_append] at member
      rcases member with inWord | inSuffix
      · exact valid.2 character inWord
      · rw [List.mem_singleton.1 inSuffix]
        decide
    exact parse_renamed.2.2 _ keepsValid _ _ parsed

end FieldSelection
