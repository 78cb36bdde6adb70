import FieldSelection.Proofs.Verdict

/-!
Contract: an error is reported at the first place that rules out every continuation.

Owns:
- a completion for each state of the scan;
- the refusal that all texts with the same offending character share;
- the place of an error, as a statement about all texts that continue a prefix.

Does not own: the message of an error.

The text before the place is the text of the tokens that were read, so no word is
cut there. The offending token may go on differently in another text, but a scan
sees only its kind, and its first character decides that.
-/

set_option autoImplicit false

namespace FieldSelection

/-! ## Completions -/

/-- The tokens that end a text soonest: a name if one is needed, and the open groups closed. -/
def ScanState.completion (state : ScanState) : List Token :=
  (if state.mode = .needName then [.wildcard] else []) ++ List.replicate state.depth .closeParen

private theorem steps?_replicate_closeParen
    {mode : ScanMode}
    (named : mode ≠ .needName)
    (depth : Nat) :
    ∃ final, ScanState.steps? ⟨mode, depth⟩ (List.replicate depth .closeParen) = some final
      ∧ final.complete = true := by
  induction depth generalizing mode with
  | zero => exact ⟨⟨mode, 0⟩, rfl, by simpa [ScanState.complete] using named⟩
  | succ depth inductionHypothesis =>
      rw [List.replicate_succ, ScanState.steps?_cons, ScanState.step?_closeParen depth named]
      exact inductionHypothesis (by decide)

theorem ScanState.steps?_completion
    (state : ScanState) :
    ∃ final, state.steps? state.completion = some final ∧ final.complete = true := by
  obtain ⟨mode, depth⟩ := state
  by_cases needed : mode = .needName
  · rw [completion, if_pos needed, needed]
    exact steps?_replicate_closeParen (by decide) depth
  · rw [completion, if_neg needed]
    exact steps?_replicate_closeParen needed depth

theorem ScanState.isWord_of_mem_completion
    {state : ScanState}
    {token : Token}
    (member : token ∈ state.completion) :
    token.isWord = false := by
  rw [completion, List.mem_append, List.mem_replicate] at member
  rcases member with name | closing
  · split at name
    · rw [List.mem_singleton.1 name]
      rfl
    · cases name
  · rw [closing.2]
    rfl

/-- Whatever was read can be continued to a text that is accepted. -/
theorem exists_completion
    {front : List Token}
    {state : ScanState}
    (canonical : Token.Canonical front)
    (led : ScanState.steps? {} front = some state) :
    ∃ completion selection, parse (Token.textOf front ++ completion) = .ok selection := by
  refine ⟨Token.textOf state.completion, exists_parse_eq_ok_iff.2 ?_⟩
  have extended : Token.Canonical (front ++ state.completion) :=
    canonical.append_of_no_words fun _ => ScanState.isWord_of_mem_completion
  rw [← Token.textOf_append, Token.ofText_textOf extended,
    ScanState.steps?_append_of_eq_some led]
  exact state.steps?_completion

/-! ## Refusals -/

/-- A text that has the same tokens up to a refused one, and goes on with its first character, is
refused there as well. -/
theorem parse_eq_error_of_refuses
    {front back : List Token}
    {token : Token}
    {state : ScanState}
    {character : Char}
    (canonical : Token.Canonical (front ++ token :: back))
    (led : ScanState.steps? {} front = some state)
    (refuses : state.step? token = none)
    {rest : String}
    (begins : token.spelling = String.singleton character ++ rest)
    (continuation : String) :
    ∃ found, parse (Token.textOf front ++ String.singleton character ++ continuation)
      = .error ⟨(Token.textOf front).utf8ByteSize, state.expected, found⟩ := by
  have goesOn : (String.singleton character ++ continuation).toList
      = character :: continuation.toList := by simp
  obtain ⟨other, tokens, lexed, otherBegins⟩ := Token.exists_ofText_eq_cons goesOn
  obtain ⟨othersCanonical, spelled⟩ := Token.ofText_eq_iff.1 lexed
  have same : token.SameKind other :=
    Token.sameKind_of_head_eq (canonical.valid token (by simp))
      (othersCanonical.valid other List.mem_cons_self) (by simp [begins]) otherBegins
  have joined : Token.Canonical (front ++ other :: tokens) := by
    obtain ⟨frontCanonical, _, apart⟩ := Token.canonical_append_iff.1 canonical
    refine Token.canonical_append_iff.2 ⟨frontCanonical, othersCanonical, ?_⟩
    intro left last right head leftWord
    rw [← Option.some.inj head, ← same.isWord_eq]
    exact apart left last token rfl leftWord
  refine ⟨Found.first (other :: tokens), parse_eq_error_iff_split.2
    ⟨front, other :: tokens, state, ?_, led, ?_, rfl⟩⟩
  · rw [String.append_assoc, ← spelled, ← Token.textOf_append, Token.ofText_textOf joined]
  · exact (ScanState.step?_eq_of_sameKind same state).symm.trans refuses

/-- The first character of a refused token rules out every continuation. -/
theorem exists_refused_character
    {front back : List Token}
    {token : Token}
    {state : ScanState}
    (canonical : Token.Canonical (front ++ token :: back))
    (led : ScanState.steps? {} front = some state)
    (refuses : state.step? token = none) :
    ∃ next others, Token.textOf (token :: back) = String.singleton next ++ others
      ∧ ∀ continuation, ∃ found,
          parse (Token.textOf front ++ String.singleton next ++ continuation)
            = .error ⟨(Token.textOf front).utf8ByteSize, state.expected, found⟩ := by
  obtain ⟨next, others, begins⟩ := Token.exists_spelling_eq (canonical.valid token (by simp))
  refine ⟨next, others ++ Token.textOf back, ?_,
    parse_eq_error_of_refuses canonical led refuses begins⟩
  rw [Token.textOf_cons, begins, String.append_assoc]

/-! ## The place of an error -/

theorem exists_split_of_parse_eq_error
    {text : String}
    {error : SyntaxError}
    (failed : parse text = .error error) :
    ∃ front back state,
      Token.Canonical (front ++ back)
        ∧ text = Token.textOf front ++ Token.textOf back
        ∧ ScanState.steps? {} front = some state
        ∧ state.Refuses back
        ∧ error = ⟨(Token.textOf front).utf8ByteSize, state.expected, Found.first back⟩ := by
  rcases parse_eq_error_iff_split.1 failed with ⟨front, back, state, lexed, stopped⟩
  have spelled := Token.ofText_eq_iff.1 lexed
  refine ⟨front, back, state, spelled.1, ?_, stopped⟩
  rw [← spelled.2, Token.textOf_append]

/-- A prefix of an accepted text is refused for nothing but its end. -/
theorem parse_prefix_eq_error
    {before after : String}
    {selection : Selection}
    {error : SyntaxError}
    (accepted : parse (before ++ after) = .ok selection)
    (failed : parse before = .error error) :
    error.offset = before.utf8ByteSize ∧ error.found.text = "end of input" := by
  obtain ⟨front, back, state, canonical, spelled, led, refuses, reported⟩ :=
    exists_split_of_parse_eq_error failed
  cases back with
  | nil =>
      rw [Token.textOf_nil, String.append_empty] at spelled
      rw [reported, spelled]
      exact ⟨rfl, rfl⟩
  | cons token tokens =>
      -- A token that is refused here is refused in the longer text as well.
      obtain ⟨next, others, begins, refused⟩ := exists_refused_character canonical led refuses
      obtain ⟨found, refusedWhole⟩ := refused (others ++ after)
      have whole : Token.textOf front ++ String.singleton next ++ (others ++ after)
          = before ++ after := by
        rw [spelled, begins]
        simp only [String.append_assoc]
      rw [whole, accepted] at refusedWhole
      cases refusedWhole

/-- A refused text is refused at a boundary between characters. What stands before it can be
continued to an accepted text, and with the next character no continuation is accepted, but
refused in the same place and for want of the same. The place is the end of the text exactly if
nothing is found there. So a prefix of an accepted text is accepted, or ends too early. -/
theorem parse_error_earliest :
    (∀ (text : String) (error : SyntaxError), parse text = .error error →
        ∃ before after : String,
          text = before ++ after
            ∧ error.offset = before.utf8ByteSize
            ∧ (∃ completion selection, parse (before ++ completion) = .ok selection)
            ∧ (error.offset < text.utf8ByteSize →
                ∃ next others, after = String.singleton next ++ others
                  ∧ ∀ continuation, ∃ found,
                      parse (before ++ String.singleton next ++ continuation)
                        = .error ⟨error.offset, error.expected, found⟩)
            ∧ (error.offset = text.utf8ByteSize ↔ error.found.text = "end of input"))
      ∧ ∀ (before after : String) (selection : Selection),
          parse (before ++ after) = .ok selection →
            (∃ shorter, parse before = .ok shorter)
              ∨ ∃ error, parse before = .error error
                  ∧ error.offset = before.utf8ByteSize
                  ∧ error.found.text = "end of input" := by
  constructor
  · intro text error failed
    obtain ⟨front, back, state, canonical, spelled, led, refuses, reported⟩ :=
      exists_split_of_parse_eq_error failed
    have parts := Token.canonical_append_iff.1 canonical
    have bytes : text.utf8ByteSize
        = (Token.textOf front).utf8ByteSize + (Token.textOf back).utf8ByteSize := by
      rw [spelled, String.utf8ByteSize_append]
    rw [reported]
    refine ⟨Token.textOf front, Token.textOf back, spelled, rfl, exists_completion parts.1 led,
      ?_, ?_⟩
    · intro within
      cases back with
      | nil =>
          rw [Token.textOf_nil, String.utf8ByteSize_empty] at bytes
          dsimp only at within
          omega
      | cons token tokens => exact exists_refused_character canonical led refuses
    · rw [Found.text_first_eq_iff, ← Token.textOf_eq_empty_iff parts.2.1.valid,
        ← String.utf8ByteSize_eq_zero_iff]
      show (Token.textOf front).utf8ByteSize = text.utf8ByteSize ↔ _
      omega
  · intro before after selection accepted
    cases parsed : parse before with
    | ok shorter =>
        left
        exact ⟨shorter, rfl⟩
    | error error =>
        right
        exact ⟨error, rfl, parse_prefix_eq_error accepted parsed⟩

theorem parse_error_earliest_adjacent_wildcards :
    (∃ before after : String,
        "*,é*(" = before ++ after
          ∧ 4 = before.utf8ByteSize
          ∧ (∃ completion selection, parse (before ++ completion) = .ok selection)
          ∧ ∃ next others, after = String.singleton next ++ others
              ∧ ∀ continuation, ∃ found,
                  parse (before ++ String.singleton next ++ continuation)
                    = .error ⟨4, .separatorOrEnd, found⟩)
      ∧ ((∃ shorter, parse "é/b(" = .ok shorter)
        ∨ ∃ error, parse "é/b(" = .error error
            ∧ error.offset = "é/b(".utf8ByteSize
            ∧ error.found.text = "end of input") := by
  constructor
  · have failed : parse "*,é*(" = .error ⟨4, .separatorOrEnd, .token .wildcard⟩ :=
      parse_eq_error_iff_split.2
        ⟨[.wildcard, .comma, .word "é"], [.wildcard, .openParen], ⟨.afterName, 0⟩,
          by decide, rfl, rfl, by decide⟩
    obtain ⟨before, after, split, offset, completed, refused, -⟩ :=
      parse_error_earliest.1 _ _ failed
    exact ⟨before, after, split, offset, completed, refused (by decide)⟩
  · have accepted : parse ("é/b(" ++ "*)") = .ok (.only (.ofChain (.slash
        (.ofField (.ofName (.ofWord (.literal "é"))))
        (.ofSubSelection (.scope (.ofWord (.literal "b"))
          (.only (.ofField (.ofName (.ofWildcard .star))))))))) :=
      parse_eq_ok_iff_tokens.2 (by decide)
    exact parse_error_earliest.2 _ _ _ accepted

end FieldSelection
