import FieldSelection.Proofs.Grammar
import FieldSelection.Proofs.RoundTrip

/-!
Contract: the verdict on texts that are put together from other texts.

Owns:
- the steps of a selector, and a selector that goes on with more steps;
- the trees whose tokens are those of two selections with a separator between them;
- the verdict on two texts with a comma or a slash between them, and on a text in
  parentheses after a name.

Does not own: the verdict where the first text is refused.

After an accepted text and a separator, the scan needs a name at depth zero, just as
at the start of a text. So the second text meets the same states as it does alone,
and only the offsets are shifted. A slash goes on with the last selector of the first
text, whose chain then takes one step after another.
-/

set_option autoImplicit false

namespace FieldSelection

/-! ## Steps -/

/-- The fields that a selector or a chain is made of, in order; a node of another shape has none. -/
def Node.steps : {shape : Shape} → Node shape → List Field
  | _, .ofField field => [field]
  | _, .ofChain chain => chain.steps
  | _, .slash init last => init.steps ++ [last]
  | _, _ => []

/-- The selector that goes on with more steps, one chain around another. -/
def Selector.extend (selector : Selector) (steps : List Field) : Selector :=
  steps.foldl (fun init last => .ofChain (.slash init last)) selector

theorem Selector.tokens_extend
    (selector : Selector)
    (steps : List Field) :
    (Selector.extend selector steps).tokens
      = selector.tokens ++ steps.flatMap fun step => .slash :: step.tokens :=
  Selector.tokens_foldl_slash selector steps

theorem Selector.slash_tokens_eq
    (selector : Selector) :
    .slash :: selector.tokens = selector.steps.flatMap fun step => .slash :: step.tokens := by
  cases selector with
  | ofField field => simp [Node.steps, Node.tokens]
  | ofChain chain =>
      cases chain with
      | slash init last =>
          -- The steps before the last one are a selector again, smaller than the chain.
          have initTokens := Selector.slash_tokens_eq init
          rw [Node.steps, Node.steps, List.flatMap_append, ← initTokens]
          simp [Node.tokens]
termination_by sizeOf selector

/-! ## Trees put together -/

namespace Selection

theorem alternatives_around
    (before after : List Selector)
    (middle : Selector) :
    (prepend before.reverse (ofList middle after)).alternatives = before ++ middle :: after := by
  rw [alternatives_prepend, alternatives_ofList, List.reverse_reverse]

/-- The tokens of a selection, told from any one of its alternatives and those on either side. -/
theorem tokens_eq_around
    (selection : Selection)
    {before after : List Selector}
    {middle : Selector}
    (listed : selection.alternatives = before ++ middle :: after) :
    selection.tokens
      = (before.flatMap fun other => other.tokens ++ [.comma])
          ++ (middle.tokens ++ after.flatMap fun other => .comma :: other.tokens) := by
  have same : selection = prepend before.reverse (ofList middle after) :=
    Node.alternatives_injective (listed.trans (alternatives_around before after middle).symm)
  rw [same, tokens_prepend, tokens_ofList, List.reverse_reverse]

theorem exists_alternatives_eq_concat
    (selection : Selection) :
    ∃ before final, selection.alternatives = before ++ [final] := by
  have nonempty := selection.alternatives_ne_nil
  exact ⟨_, _, (List.dropLast_append_getLast nonempty).symm⟩

/-- A comma puts the alternatives of one selection behind those of the other. -/
theorem exists_tokens_eq_comma
    (left right : Selection) :
    ∃ joined : Selection,
      joined.tokens = left.tokens ++ .comma :: right.tokens
        ∧ joined.alternatives = left.alternatives ++ right.alternatives := by
  obtain ⟨before, final, leftListed⟩ := exists_alternatives_eq_concat left
  obtain ⟨first, after, rightListed⟩ := List.exists_cons_of_ne_nil right.alternatives_ne_nil
  have listed := alternatives_around before (first :: after) final
  refine ⟨_, ?_, listed.trans ?_⟩
  · rw [tokens_eq_around _ listed, tokens_eq_around left leftListed,
      tokens_eq_alternatives right rightListed]
    simp
  · rw [leftListed, rightListed, List.append_assoc]
    rfl

/-- A slash extends the last alternative of one selection by the first of the other. -/
theorem exists_tokens_eq_slash
    (left right : Selection) :
    ∃ before final first after, ∃ joined : Selection,
      left.alternatives = before ++ [final]
        ∧ right.alternatives = first :: after
        ∧ joined.tokens = left.tokens ++ .slash :: right.tokens
        ∧ joined.alternatives = before ++ Selector.extend final first.steps :: after := by
  obtain ⟨before, final, leftListed⟩ := exists_alternatives_eq_concat left
  obtain ⟨first, after, rightListed⟩ := List.exists_cons_of_ne_nil right.alternatives_ne_nil
  have listed := alternatives_around before after (Selector.extend final first.steps)
  refine ⟨before, final, first, after, _, leftListed, rightListed, ?_, listed⟩
  rw [tokens_eq_around _ listed, tokens_eq_around left leftListed,
    tokens_eq_alternatives right rightListed, Selector.tokens_extend, ← Selector.slash_tokens_eq]
  simp

end Selection

/-! ## Texts put together -/

section Join

variable {text other : String} {left right : Selection}

theorem parse_join_eq_ok
    {joined : Selection}
    (separator : Token)
    (accepted : parse text = .ok left)
    (otherAccepted : parse other = .ok right)
    (noWord : separator.isWord = false)
    (written : joined.tokens = left.tokens ++ separator :: right.tokens) :
    parse (text ++ separator.spelling ++ other) = .ok joined := by
  rw [parse_eq_ok_iff_tokens] at accepted otherAccepted ⊢
  rw [Token.ofText_join text other noWord, accepted, otherAccepted, written]

/-- After an accepted text and a separator, a refused text is refused as it is alone. -/
theorem parse_join_eq_error
    {error : SyntaxError}
    (separator : Token)
    (separates : separator = .comma ∨ separator = .slash)
    (accepted : parse text = .ok left)
    (failed : parse other = .error error) :
    parse (text ++ separator.spelling ++ other)
      = .error ⟨error.offset + text.utf8ByteSize + 1, error.expected, error.found⟩ := by
  have noWord : separator.isWord = false := by rcases separates with rfl | rfl <;> rfl
  have oneByte : separator.spelling.utf8ByteSize = 1 := by rcases separates with rfl | rfl <;> rfl
  obtain ⟨front, back, state, lexed, led, refuses, rfl⟩ := parse_eq_error_iff_split.1 failed
  have written := parse_eq_ok_iff_tokens.1 accepted
  refine parse_eq_error_iff_split.2
    ⟨left.tokens ++ separator :: front, back, state, ?_, ?_, refuses, ?_⟩
  · rw [Token.ofText_join text other noWord, written, lexed, List.append_assoc, List.cons_append]
  -- The tokens of a selection lead from the initial state to depth zero, and the separator leads
  -- back to the initial state.
  · rw [ScanState.steps?_append_of_eq_some (left.steps?_tokens 0),
      ScanState.steps?_separator 0 left.ending_ne_needName separates]
    exact led
  · have bytes : (Token.textOf (left.tokens ++ separator :: front)).utf8ByteSize
        = text.utf8ByteSize + (1 + (Token.textOf front).utf8ByteSize) := by
      rw [Token.textOf_append, Token.textOf_cons, ← written, Token.textOf_ofText,
        String.utf8ByteSize_append, String.utf8ByteSize_append, oneByte]
    rw [bytes]
    simp only [SyntaxError.mk.injEq, and_true]
    omega

theorem parse_comma_join
    (accepted : parse text = .ok left)
    (otherAccepted : parse other = .ok right) :
    ∃ joined, parse (text ++ "," ++ other) = .ok joined
      ∧ joined.alternatives = left.alternatives ++ right.alternatives := by
  obtain ⟨joined, written, listed⟩ := Selection.exists_tokens_eq_comma left right
  exact ⟨joined, parse_join_eq_ok .comma accepted otherAccepted rfl written, listed⟩

theorem parse_slash_join
    (accepted : parse text = .ok left)
    (otherAccepted : parse other = .ok right) :
    ∃ before final first after, ∃ joined : Selection,
      left.alternatives = before ++ [final]
        ∧ right.alternatives = first :: after
        ∧ parse (text ++ "/" ++ other) = .ok joined
        ∧ joined.alternatives = before ++ Selector.extend final first.steps :: after := by
  obtain ⟨before, final, first, after, joined, leftListed, rightListed, written, listed⟩ :=
    Selection.exists_tokens_eq_slash left right
  exact ⟨before, final, first, after, joined, leftListed, rightListed,
    parse_join_eq_ok .slash accepted otherAccepted rfl written, listed⟩

theorem exists_parse_join_iff
    (separator : Token)
    (separates : separator = .comma ∨ separator = .slash)
    (accepted : parse text = .ok left)
    (other : String) :
    (∃ joined, parse (text ++ separator.spelling ++ other) = .ok joined)
      ↔ ∃ right, parse other = .ok right := by
  constructor
  · rintro ⟨joined, joinedAccepted⟩
    cases parsed : parse other with
    | ok right => exact ⟨right, rfl⟩
    | error error =>
        rw [parse_join_eq_error separator separates accepted parsed] at joinedAccepted
        cases joinedAccepted
  · rintro ⟨right, otherAccepted⟩
    rcases separates with rfl | rfl
    · obtain ⟨joined, joinedAccepted, -⟩ := parse_comma_join accepted otherAccepted
      exact ⟨joined, joinedAccepted⟩
    · obtain ⟨_, _, _, _, joined, -, -, joinedAccepted, -⟩ :=
        parse_slash_join accepted otherAccepted
      exact ⟨joined, joinedAccepted⟩

theorem parse_scope
    (name : Name)
    (nameValid : name.WordsValid)
    (accepted : parse text = .ok left) :
    parse (Token.textOf name.tokens ++ "(" ++ text ++ ")")
      = .ok (.only (.ofField (.ofSubSelection (.scope name left)))) := by
  obtain ⟨leftValid, rfl⟩ := parse_eq_ok_iff_render.1 accepted
  refine parse_eq_ok_iff_render.2 ⟨⟨nameValid, leftValid⟩, ?_⟩
  simp [Node.render_eq_textOf, Node.tokens, Token.spelling, String.append_assoc]

end Join

/-- What follows an accepted text and a comma or a slash is accepted or refused as it is alone, only
further on. A comma appends its alternatives; a slash takes the steps of its first alternative as
further steps of the last alternative so far. In parentheses after a name, an accepted text becomes
the body of a sub-selection. -/
theorem parse_join
    {text : String}
    {left : Selection}
    (accepted : parse text = .ok left) :
    (∀ separator ∈ [",", "/"], ∀ other : String,
        ((∃ joined, parse (text ++ separator ++ other) = .ok joined)
            ↔ ∃ right, parse other = .ok right)
          ∧ ∀ error, parse other = .error error →
              parse (text ++ separator ++ other)
                = .error ⟨error.offset + text.utf8ByteSize + 1, error.expected, error.found⟩)
      ∧ (∀ (other : String) (right : Selection), parse other = .ok right →
          ∃ joined, parse (text ++ "," ++ other) = .ok joined
            ∧ joined.alternatives = left.alternatives ++ right.alternatives)
      ∧ (∀ (other : String) (right : Selection), parse other = .ok right →
          ∃ before final first after, ∃ joined : Selection,
            left.alternatives = before ++ [final]
              ∧ right.alternatives = first :: after
              ∧ parse (text ++ "/" ++ other) = .ok joined
              ∧ joined.alternatives = before ++ Selector.extend final first.steps :: after)
      ∧ parse ("*" ++ "(" ++ text ++ ")")
          = .ok (.only (.ofField (.ofSubSelection (.scope (.ofWildcard .star) left))))
      ∧ ∀ word : String, ValidWord word →
          parse (word ++ "(" ++ text ++ ")")
            = .ok (.only (.ofField (.ofSubSelection (.scope (.ofWord (.literal word)) left)))) := by
  refine ⟨?_, fun _ _ => parse_comma_join accepted, fun _ _ => parse_slash_join accepted, ?_, ?_⟩
  · intro separator member other
    have spelled : ∃ token : Token, separator = token.spelling
        ∧ (token = .comma ∨ token = .slash) := by
      rcases List.mem_pair.1 member with rfl | rfl
      · exact ⟨.comma, rfl, .inl rfl⟩
      · exact ⟨.slash, rfl, .inr rfl⟩
    obtain ⟨token, rfl, separates⟩ := spelled
    refine ⟨exists_parse_join_iff token separates accepted other, ?_⟩
    intro error
    exact parse_join_eq_error token separates accepted
  · exact parse_scope (.ofWildcard .star) trivial accepted
  · intro word valid
    have inParentheses := parse_scope (.ofWord (.literal word)) valid accepted
    have spelled : Token.textOf (Node.ofWord (.literal word)).tokens = word := by
      simp [Node.tokens, Token.spelling]
    rwa [spelled] at inParentheses

theorem parse_join_chains :
    (∃ joined, parse ("a,é/b" ++ "/" ++ "*/c,d") = .ok joined
        ∧ joined.alternatives
          = [.ofField (.ofName (.ofWord (.literal "a"))),
            .ofChain (.slash (.ofChain (.slash (.ofChain (.slash
              (.ofField (.ofName (.ofWord (.literal "é"))))
              (.ofName (.ofWord (.literal "b")))))
              (.ofName (.ofWildcard .star))))
              (.ofName (.ofWord (.literal "c")))),
            .ofField (.ofName (.ofWord (.literal "d")))])
      ∧ parse ("a,é/b" ++ "," ++ "c(") = .error ⟨9, .fieldName, .endOfInput⟩
      ∧ ∃ body, parse "a,é/b" = .ok body
          ∧ parse (" " ++ "(" ++ "a,é/b" ++ ")")
            = .ok (.only (.ofField (.ofSubSelection (.scope (.ofWord (.literal " ")) body)))) := by
  have accepted : parse "a,é/b" = .ok (.cons (.ofField (.ofName (.ofWord (.literal "a"))))
      (.only (.ofChain (.slash (.ofField (.ofName (.ofWord (.literal "é"))))
        (.ofName (.ofWord (.literal "b"))))))) :=
    parse_eq_ok_iff_tokens.2 (by decide)
  have otherAccepted : parse "*/c,d" = .ok (.cons (.ofChain (.slash
      (.ofField (.ofName (.ofWildcard .star))) (.ofName (.ofWord (.literal "c")))))
      (.only (.ofField (.ofName (.ofWord (.literal "d")))))) :=
    parse_eq_ok_iff_tokens.2 (by decide)
  have failed : parse "c(" = .error ⟨2, .fieldName, .endOfInput⟩ :=
    parse_eq_error_iff_split.2
      ⟨[.word "c", .openParen], [], ⟨.needName, 1⟩, by decide, rfl, rfl, by decide⟩
  have joins := parse_join accepted
  refine ⟨?_, ?_, ?_⟩
  · obtain ⟨before, final, first, after, joined, leftListed, rightListed, joinedAccepted, listed⟩ :=
      joins.2.2.1 _ _ otherAccepted
    refine ⟨joined, joinedAccepted, ?_⟩
    have split : [_] ++ [_] = before ++ [final] := leftListed
    obtain ⟨rfl, same⟩ := List.append_inj' split rfl
    cases same
    cases rightListed
    exact listed
  · exact (joins.1 "," (by decide) "c(").2 _ failed
  · exact ⟨_, accepted, joins.2.2.2.2 " " (by decide)⟩

end FieldSelection
