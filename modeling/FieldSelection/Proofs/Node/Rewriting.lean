import FieldSelection.Node.Edit
import FieldSelection.Node.Rewrite
import FieldSelection.Proofs.Node.Rebuilding

/-!
Contract: a tree of valid words stays one, however it is rewritten.

Owns:
- validity of words as a relation that rebuilding keeps;
- the rules of a strategy, and their runs, on trees of valid words;
- fixed rules as a strategy.

Does not own: validity of trees that are built, and not folded.
-/

set_option autoImplicit false

namespace FieldSelection

/-! ## Lists of valid alternatives -/

theorem Node.wordsValid_iff_alternatives
    (selection : Selection) :
    selection.WordsValid ↔ ∀ alternative ∈ selection.alternatives, alternative.WordsValid := by
  match selection with
  | .only alternative => simp [WordsValid, alternatives]
  | .cons alternative rest =>
      simp [WordsValid, alternatives, wordsValid_iff_alternatives rest]

theorem Node.wordsValid_withAlternatives
    {selection : Selection}
    {alternatives : List Selector}
    (valid : selection.WordsValid)
    (eachValid : ∀ alternative ∈ alternatives, alternative.WordsValid) :
    (selection.withAlternatives alternatives).WordsValid := by
  by_cases empty : alternatives = []
  · rw [empty]
    exact valid
  · rw [wordsValid_iff_alternatives, alternatives_withAlternatives selection empty]
    exact eachValid

theorem Arrangement.wordsValid_apply
    {selection : Selection}
    (valid : selection.WordsValid)
    (arrangement : Arrangement) :
    (arrangement.apply selection).WordsValid := by
  have eachValid := selection.wordsValid_iff_alternatives.1 valid
  cases arrangement with
  | reverse =>
      apply Node.wordsValid_withAlternatives valid
      intro alternative member
      exact eachValid alternative (List.mem_reverse.1 member)
  | truncate count =>
      apply Node.wordsValid_withAlternatives valid
      intro alternative member
      exact eachValid alternative (List.mem_of_mem_take member)

theorem Arrangement.wordsValid_foldl_apply
    {selection : Selection}
    (valid : selection.WordsValid)
    (arrangements : List Arrangement) :
    (arrangements.foldl apply selection).WordsValid := by
  induction arrangements generalizing selection with
  | nil => exact valid
  | cons arrangement others inductionHypothesis =>
      exact inductionHypothesis (arrangement.wordsValid_apply valid)

theorem Node.wordsValid_withWildcardSteps
    {chain : Chain}
    (valid : chain.WordsValid)
    (count : Nat) :
    (chain.withWildcardSteps count).WordsValid := by
  induction count with
  | zero => exact valid
  | succ count inductionHypothesis => exact ⟨inductionHypothesis, True.intro⟩

/-! ## Strategies -/

/-- One node has valid words if the other does. -/
abbrev Node.StaysValid {shape : Shape} (old new : Node shape) : Prop :=
  old.WordsValid → new.WordsValid

theorem Node.congruence_staysValid : Node.Congruence fun old new => old.StaysValid new where
  word _ := id
  wildcard _ := id
  ofWord := id
  ofWildcard := id
  ofName := id
  ofSubSelection := id
  scope name body := And.imp name body
  ofField := id
  ofChain := id
  slash init last := And.imp init last
  selection {old new} related valid := by
    rw [wordsValid_iff_alternatives] at valid ⊢
    intro alternative member
    obtain ⟨origin, inOld, staysValid⟩ := exists_mem_of_forall₂ related alternative member
    exact staysValid (valid origin inOld)

namespace Strategy

variable {σ : Type} (strategy : Strategy σ)

theorem withWord_ensures
    {Result : Type}
    {property : Result → Prop}
    {text : String}
    {use : Word → Result}
    {fallback : StateM σ Result}
    (made : ∀ word : Word, word.WordsValid → property (use word))
    (kept : Ensures fallback property) :
    Ensures (strategy.withWord text use fallback) property := by
  unfold withWord
  split
  · rename_i word accepted
    obtain ⟨valid, rfl⟩ := Word.ofText_eq_ok_iff.1 accepted
    exact Ensures.pure (made _ valid)
  · rename_i refusal _
    refine (Ensures.trivial (strategy.refused refusal)).bind ?_
    intro _ _
    exact kept

/-- The rule of a strategy keeps the words of a node valid if its descents do so. -/
theorem rule_ensures
    {shape : Shape}
    {node : Node shape}
    {fold : Descent (fun shape => StateM σ (Node shape)) node}
    (below : ∀ {child : Shape} (part : Node child) (smaller : sizeOf part < sizeOf node),
      Ensures (fold part smaller) part.StaysValid) :
    Ensures (strategy.rule shape node fold) node.StaysValid := by
  have congruence := Node.congruence_staysValid
  match shape, node with
  | .selection, selection =>
      refine (rebuild_ensures congruence below).bind ?_
      intro folded foldedValid
      refine (Ensures.trivial (strategy.arrange folded)).bind ?_
      intro arrangements _
      exact Ensures.pure fun valid =>
        Arrangement.wordsValid_foldl_apply (foldedValid valid) arrangements
  | .selector, .ofChain (.slash init last) =>
      refine (Ensures.trivial (strategy.keepsLastStep (.slash init last))).bind ?_
      intro keepsLast _
      cases keepsLast with
      | true => exact (below last _).map fun _ lastValid valid => lastValid valid.2
      | false => exact rebuild_ensures congruence below
  | .chain, chain =>
      refine (rebuild_ensures congruence below).bind ?_
      intro folded foldedValid
      refine (Ensures.trivial (strategy.wildcardSteps folded)).bind ?_
      intro count _
      exact Ensures.pure fun valid => Node.wordsValid_withWildcardSteps (foldedValid valid) count
  | .field, .ofSubSelection (.scope name body) =>
      refine (Ensures.trivial (strategy.dropsBody (.scope name body))).bind ?_
      intro drops _
      cases drops with
      | true => exact (below name _).map fun _ nameValid valid => nameValid valid.1
      | false => exact rebuild_ensures congruence below
  | .subSelection, .scope name body =>
      refine (Ensures.trivial (strategy.opensBody (.scope name body))).bind ?_
      intro opens _
      cases opens with
      | true =>
          refine (below name Node.scopeName_lt).bind ?_
          intro folded nameValid
          exact Ensures.pure fun valid => ⟨nameValid valid.1, True.intro⟩
      | false => exact rebuild_ensures congruence below
  | .name, name =>
      refine (Ensures.trivial (strategy.exchange name)).bind ?_
      intro exchange _
      match exchange with
      | none => exact rebuild_ensures congruence below
      | some .wildcard => exact Ensures.pure fun _ => True.intro
      | some (.word text) =>
          refine strategy.withWord_ensures ?_ (rebuild_ensures congruence below)
          exact fun word wordValid _ => wordValid
  | .word, word =>
      refine (Ensures.trivial (strategy.respell word)).bind ?_
      intro text _
      refine strategy.withWord_ensures ?_ (Ensures.pure id)
      exact fun replacement replacementValid _ => replacementValid
  | .selector, .ofField _
  | .field, .ofName _
  | .wildcard, _ => exact rebuild_ensures congruence below

/-- What a strategy makes of a node has valid words if the node does. -/
theorem run_folder_ensures
    {shape : Shape}
    (node : Node shape) :
    Ensures (strategy.folder.run node) node.StaysValid := by
  apply Folder.run_ensures
  intro shape node fold below
  refine (Ensures.trivial (strategy.enter shape node)).bind ?_
  intro enters _
  cases enters with
  | true => exact strategy.rule_ensures below
  | false => exact Ensures.pure id

end Strategy

/-! ## Fixed rules -/

/-- The arrangements that the rules ask for. -/
def EditRules.arrangements (rules : EditRules) : List Arrangement :=
  if rules.reverseAlternatives then [.reverse]
  else if rules.firstAlternative then [.truncate 1]
  else []

theorem EditRules.arrange_eq_foldl
    (rules : EditRules) :
    rules.arrange = fun selection => rules.arrangements.foldl Arrangement.apply selection := by
  funext selection
  unfold arrange arrangements
  by_cases reverse : rules.reverseAlternatives = true
  · simp [reverse, Arrangement.apply]
  · by_cases first : rules.firstAlternative = true
    · simp [reverse, first, Arrangement.apply]
    · simp [reverse, first]

/-- The strategy that decides by the same rules at every node. -/
def EditRules.strategy (rules : EditRules) : Strategy EditState where
  enter shape _ := do
    modify fun state => { state with trace := state.trace.push shape }
    pure true
  arrange _ := pure rules.arrangements
  keepsLastStep _ := pure rules.lastStep
  wildcardSteps _ := pure (if rules.wildcardStep then 1 else 0)
  dropsBody _ := pure rules.bareNames
  opensBody _ := pure rules.wildcardBodies
  exchange
    | .ofWord _ => pure (if rules.wordsToWildcards then some .wildcard else none)
    | .ofWildcard _ => pure (if rules.wildcardsToWords then some (.word "any") else none)
  respell word := pure (rules.respell word.text)
  refused refusal := modify fun state => { state with refusal := state.refusal.or (some refusal) }

theorem EditRules.rule_eq_strategy_rule
    (rules : EditRules)
    {shape : Shape}
    (node : Node shape)
    (fold : Descent (fun shape => StateM EditState (Node shape)) node) :
    rules.rule shape node fold = rules.strategy.rule shape node fold := by
  match shape, node with
  | .selection, selection => simp [rule, Strategy.rule, strategy, rules.arrange_eq_foldl]
  | .selector, .ofChain (.slash init last) => simp [rule, Strategy.rule, strategy]
  | .chain, chain =>
      cases added : rules.wildcardStep <;>
        simp [rule, Strategy.rule, strategy, added, Node.withWildcardSteps]
  | .field, .ofSubSelection (.scope name body) => simp [rule, Strategy.rule, strategy]
  | .subSelection, .scope name body => simp [rule, Strategy.rule, strategy]
  | .name, .ofWord word =>
      cases replaced : rules.wordsToWildcards <;> simp [rule, Strategy.rule, strategy, replaced]
  | .name, .ofWildcard wildcard =>
      have made : Word.ofText "any" = .ok (.literal "any") := rfl
      cases replaced : rules.wildcardsToWords <;>
        simp [rule, Strategy.rule, strategy, replaced, Strategy.withWord, made]
  | .word, word =>
      simp only [rule, Strategy.rule, strategy, replaceWord, Strategy.withWord, pure_bind]
      cases Word.ofText (rules.respell word.text) <;> rfl
  | .selector, .ofField _
  | .field, .ofName _
  | .wildcard, _ => rfl

theorem EditRules.folder_eq_strategy_folder
    (rules : EditRules) :
    rules.folder = rules.strategy.folder := by
  funext shape node fold
  have sameRule := rules.rule_eq_strategy_rule node fold
  simp [folder, Strategy.folder, sameRule, strategy]

theorem Node.edit_eq_rewrite
    {shape : Shape}
    (node : Node shape)
    (rules : EditRules) :
    node.edit rules = node.rewrite rules.strategy {} := by
  rw [edit, rewrite, rules.folder_eq_strategy_folder]

end FieldSelection
