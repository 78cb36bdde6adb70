import FieldSelection.Grammar
import FieldSelection.Proofs.Parser.Completeness

/-!
Contract: the parser accepts exactly the language of the grammar.

Owns:
- the tokens of gathered chains and of listed alternatives;
- the equivalence of derivations and written tokens, in both directions;
- acceptance, and the uniqueness of the tree of a derivation.

Does not own: any reading of texts. Streams here are arbitrary lists of lexemes.

A derivation lists the parts of a chain, while the tree nests them to the left. So
a tree is turned into a derivation from the innermost chain outwards, by one more
step at the end of a list of steps.
-/

set_option autoImplicit false

namespace FieldSelection

/-! ## From derivations to tokens -/

theorem Selector.tokens_foldl_slash
    (init : Selector)
    (steps : List Field) :
    (steps.foldl (fun init last => (.ofChain (.slash init last) : Selector)) init).tokens
      = init.tokens ++ steps.flatMap fun step => .slash :: step.tokens := by
  induction steps generalizing init with
  | nil => simp
  | cons step steps inductionHypothesis =>
      rw [List.foldl_cons, inductionHypothesis]
      simp [Node.tokens]

theorem Selector.tokens_ofSteps
    (head : Field)
    (steps : List Field) :
    (Selector.ofSteps head steps).tokens
      = head.tokens ++ steps.flatMap fun step => .slash :: step.tokens :=
  Selector.tokens_foldl_slash (.ofField head) steps

theorem Selection.tokens_eq_alternatives
    (selection : Selection)
    {first : Selector}
    {rest : List Selector}
    (listed : selection.alternatives = first :: rest) :
    selection.tokens = first.tokens ++ rest.flatMap fun other => .comma :: other.tokens := by
  match selection with
  | .only alternative =>
      cases listed
      simp [Node.tokens]
  | .cons alternative others =>
      obtain ⟨next, later, othersListed⟩ :=
        List.exists_cons_of_ne_nil others.alternatives_ne_nil
      rw [Node.alternatives, othersListed] at listed
      cases listed
      have othersTokens := Selection.tokens_eq_alternatives others othersListed
      simp [Node.tokens, othersTokens]

theorem Selection.tokens_ofList
    (first : Selector)
    (rest : List Selector) :
    (Selection.ofList first rest).tokens
      = first.tokens ++ rest.flatMap fun other => .comma :: other.tokens :=
  Selection.tokens_eq_alternatives _ (Selection.alternatives_ofList first rest)

theorem DerivesName.tokens_eq
    {tokens : List Token}
    {name : Name}
    (derived : DerivesName tokens name) :
    tokens = name.tokens := by
  cases derived with
  | word text => rfl
  | wildcard => rfl

mutual

theorem DerivesField.tokens_eq
    {tokens : List Token}
    {field : Field} :
    DerivesField tokens field → tokens = field.tokens
  | .bare name => name.tokens_eq
  | .scoped name body => by
      rw [name.tokens_eq, body.tokens_eq]
      simp [Node.tokens]

theorem DerivesSteps.tokens_eq
    {tokens : List Token}
    {steps : List Field} :
    DerivesSteps tokens steps → tokens = steps.flatMap fun step => .slash :: step.tokens
  | .nil => rfl
  | .cons field steps => by
      rw [field.tokens_eq, steps.tokens_eq]
      rfl

theorem DerivesSelector.tokens_eq
    {tokens : List Token}
    {selector : Selector} :
    DerivesSelector tokens selector → tokens = selector.tokens
  | .steps head steps => by
      rw [head.tokens_eq, steps.tokens_eq, Selector.tokens_ofSteps]

theorem DerivesAlternatives.tokens_eq
    {tokens : List Token}
    {rest : List Selector} :
    DerivesAlternatives tokens rest → tokens = rest.flatMap fun other => .comma :: other.tokens
  | .nil => rfl
  | .cons selector rest => by
      rw [selector.tokens_eq, rest.tokens_eq]
      rfl

theorem DerivesSelection.tokens_eq
    {tokens : List Token}
    {selection : Selection} :
    DerivesSelection tokens selection → tokens = selection.tokens
  | .alternatives first rest => by
      rw [first.tokens_eq, rest.tokens_eq, Selection.tokens_ofList]

end

/-! ## From tokens to derivations -/

theorem DerivesName.of_name
    (name : Name) :
    DerivesName name.tokens name := by
  cases name with
  | ofWord word =>
      cases word
      exact .word _
  | ofWildcard wildcard =>
      cases wildcard
      exact .wildcard

theorem DerivesSteps.concat
    {tokens fieldTokens : List Token}
    {steps : List Field}
    {field : Field}
    (last : DerivesField fieldTokens field) :
    DerivesSteps tokens steps →
      DerivesSteps (tokens ++ .slash :: fieldTokens) (steps ++ [field])
  | .nil => by
      have alone := DerivesSteps.cons last .nil
      rwa [List.append_nil] at alone
  | .cons first rest => by
      have longer := DerivesSteps.cons first (DerivesSteps.concat last rest)
      rwa [← List.append_assoc] at longer

/-- A chain is derived from its first steps and the last, although it lists all steps alike. -/
theorem DerivesSelector.slash
    {initTokens lastTokens : List Token}
    {init : Selector}
    {last : Field}
    (initDerived : DerivesSelector initTokens init)
    (lastDerived : DerivesField lastTokens last) :
    DerivesSelector (initTokens ++ .slash :: lastTokens) (.ofChain (.slash init last)) := by
  cases initDerived with
  | @steps headTokens tokens head steps headDerived stepsDerived =>
      have longer := DerivesSelector.steps headDerived (stepsDerived.concat lastDerived)
      have gathered : Selector.ofSteps head (steps ++ [last])
          = .ofChain (.slash (Selector.ofSteps head steps) last) := by
        simp [Selector.ofSteps]
      rwa [gathered, ← List.append_assoc] at longer

theorem DerivesSelection.cons
    {selectorTokens tokens : List Token}
    {alternative : Selector}
    {others : Selection}
    (derived : DerivesSelector selectorTokens alternative)
    (othersDerived : DerivesSelection tokens others) :
    DerivesSelection (selectorTokens ++ .comma :: tokens) (.cons alternative others) := by
  cases othersDerived with
  | @alternatives firstTokens restTokens first rest firstDerived restDerived =>
      have longer := DerivesSelection.alternatives derived (.cons firstDerived restDerived)
      rwa [Selection.ofList_cons] at longer

mutual

theorem DerivesField.of_field
    (field : Field) :
    DerivesField field.tokens field := by
  match field with
  | .ofName name => exact .bare (.of_name name)
  | .ofSubSelection (.scope name body) =>
      have derived := DerivesField.scoped (.of_name name) (DerivesSelection.of_selection body)
      rw [List.append_assoc name.tokens] at derived
      exact derived
termination_by sizeOf field

theorem DerivesSelector.of_selector
    (selector : Selector) :
    DerivesSelector selector.tokens selector := by
  match selector with
  | .ofField field =>
      have derived := DerivesSelector.steps (DerivesField.of_field field) .nil
      rwa [List.append_nil] at derived
  | .ofChain (.slash init last) =>
      exact (DerivesSelector.of_selector init).slash (DerivesField.of_field last)
termination_by sizeOf selector

theorem DerivesSelection.of_selection
    (selection : Selection) :
    DerivesSelection selection.tokens selection := by
  match selection with
  | .only alternative =>
      have derived :=
        DerivesSelection.alternatives (DerivesSelector.of_selector alternative) .nil
      rwa [List.append_nil] at derived
  | .cons alternative others =>
      exact DerivesSelection.cons (DerivesSelector.of_selector alternative)
        (DerivesSelection.of_selection others)
termination_by sizeOf selection

end

/-- The grammar derives a tree from the tokens that it is written with, and from no others. -/
theorem derivesSelection_iff_tokens
    {tokens : List Token}
    {selection : Selection} :
    DerivesSelection tokens selection ↔ tokens = selection.tokens := by
  constructor
  · exact DerivesSelection.tokens_eq
  · intro written
    rw [written]
    exact DerivesSelection.of_selection selection

/-! ## Acceptance -/

/-- Distinct trees are written with distinct tokens, since the parser gives back either of them. -/
theorem Selection.tokens_injective
    {left right : Selection}
    (same : left.tokens = right.tokens) :
    left = right := by
  let stream : TokenStream := ⟨left.tokens.map fun token => ⟨token, 0⟩, 0⟩
  have written : stream.tokens = left.tokens := by
    simp [stream, TokenStream.tokens, Function.comp_def]
  have readLeft := TokenStream.parse_eq_ok_iff_tokens.2 written
  have readRight := TokenStream.parse_eq_ok_iff_tokens.2 (written.trans same)
  rw [readLeft] at readRight
  exact Except.ok.inj readRight

/-- The parser accepts a stream with a tree exactly if the grammar derives the tree from its
tokens, and no tokens derive two trees. -/
theorem TokenStream.parse_eq_ok_iff_derives :
    (∀ (stream : TokenStream) (selection : Selection),
        stream.parse = .ok selection ↔ DerivesSelection stream.tokens selection)
      ∧ ∀ (tokens : List Token) (selection : Selection),
          DerivesSelection tokens selection →
            ∀ other, DerivesSelection tokens other → other = selection := by
  constructor
  · intro stream selection
    rw [parse_eq_ok_iff_tokens, derivesSelection_iff_tokens]
  · intro tokens selection derived other otherDerived
    apply Selection.tokens_injective
    rw [← derived.tokens_eq, ← otherDerived.tokens_eq]

/-- A stream made by hand may hold words that no text has, and places that no text gives. -/
theorem parse_ok_iff_derives_unchecked_words :
    TokenStream.parse ⟨[⟨.word "a,b", 9⟩, ⟨.slash, 9⟩, ⟨.word "", 0⟩], 4⟩
        = .ok (.only (.ofChain (.slash (.ofField (.ofName (.ofWord (.literal "a,b"))))
            (.ofName (.ofWord (.literal ""))))))
      ∧ ∀ other, DerivesSelection [.word "a,b", .slash, .word ""] other →
          other = .only (.ofChain (.slash (.ofField (.ofName (.ofWord (.literal "a,b"))))
            (.ofName (.ofWord (.literal ""))))) := by
  have derived : DerivesSelection [.word "a,b", .slash, .word ""]
      (.only (.ofChain (.slash (.ofField (.ofName (.ofWord (.literal "a,b"))))
        (.ofName (.ofWord (.literal "")))))) :=
    derivesSelection_iff_tokens.2 rfl
  exact ⟨(TokenStream.parse_eq_ok_iff_derives.1 _ _).2 derived,
    TokenStream.parse_eq_ok_iff_derives.2 _ _ derived⟩

end FieldSelection
