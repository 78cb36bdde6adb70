import FieldSelection.Operation
import FieldSelection.Proofs.Node.Equality
import FieldSelection.Proofs.Node.Folding
import FieldSelection.Proofs.Node.Rewriting
import FieldSelection.Proofs.Node.Visiting
import FieldSelection.Proofs.RoundTrip

/-!
Contract: every tree that can be made is read again from its text.

Owns:
- `Grants`, a property of whatever a step that may be refused results in;
- validity of words through wrapping, building, taking apart and folding;
- the invariant of the workbench, for one operation and for lists of them.

Does not own: the round trip of trees with valid words (`FieldSelection.Proofs.RoundTrip`).

The invariant is that all words on the workbench are valid. Only two operations bring new
words in, reading and the check of a text; all others move words that are there already.
-/

set_option autoImplicit false

namespace FieldSelection

/-! ## Steps that may be refused -/

/-- Whatever a program results in has the property, unless the program fails. -/
def Grants {Failure Result : Type} (program : Except Failure Result) (property : Result → Prop) : Prop :=
  ∀ result, program = .ok result → property result

namespace Grants

variable {Failure Result Next : Type} {property : Result → Prop} {nextProperty : Next → Prop}

theorem ok
    {result : Result}
    (holds : property result) :
    Grants (.ok result : Except Failure Result) property := by
  intro _ same
  cases same
  exact holds

theorem error (failure : Failure) : Grants (.error failure) property := by
  intro _ same
  cases same

theorem trivial (program : Except Failure Result) : Grants program fun _ => True :=
  fun _ _ => True.intro

theorem bind
    {program : Except Failure Result}
    {continuation : Result → Except Failure Next}
    (first : Grants program property)
    (later : ∀ result, property result → Grants (continuation result) nextProperty) :
    Grants (program >>= continuation) nextProperty := by
  cases program with
  | error failure => exact error failure
  | ok result => exact later result (first result rfl)

end Grants

/-! ## Wrapping and taking apart -/

namespace AnyNode

variable {node : AnyNode} (valid : node.node.WordsValid)
include valid

theorem wordsValid_of_name?
    {name : Name}
    (wrapped : node.name? = some name) :
    name.WordsValid := by
  obtain ⟨shape, node⟩ := node
  cases shape <;> cases wrapped <;> exact valid

theorem wordsValid_of_field?
    {field : Field}
    (wrapped : node.field? = some field) :
    field.WordsValid := by
  obtain ⟨shape, node⟩ := node
  cases shape <;> cases wrapped <;> exact valid

theorem wordsValid_of_selector?
    {selector : Selector}
    (wrapped : node.selector? = some selector) :
    selector.WordsValid := by
  obtain ⟨shape, node⟩ := node
  cases shape <;> cases wrapped <;> exact valid

theorem wordsValid_of_selection?
    {selection : Selection}
    (same : node.selection? = some selection) :
    selection.WordsValid := by
  obtain ⟨shape, node⟩ := node
  cases shape <;> cases same
  exact valid

theorem wordsValid_asSelection : node.asSelection.WordsValid := by
  obtain ⟨shape, node⟩ := node
  cases shape <;> exact valid

end AnyNode

theorem AnyNode.tokens_asSelection
    (node : AnyNode) :
    node.asSelection.tokens = node.node.tokens := by
  obtain ⟨shape, node⟩ := node
  cases shape <;> rfl

/-- A node of any shape with valid words is read from its text, as a selection of its own. -/
theorem AnyNode.parse_render_of_wordsValid
    {node : AnyNode}
    (valid : node.node.WordsValid) :
    parse node.node.render = .ok node.asSelection := by
  apply parse_eq_ok_iff_render.2
  refine ⟨wordsValid_asSelection valid, ?_⟩
  rw [Node.render_eq_textOf, Node.render_eq_textOf, node.tokens_asSelection]

theorem Node.wordsValid_next?
    {selection rest : Selection}
    (valid : selection.WordsValid)
    (next : selection.next? = some rest) :
    rest.WordsValid := by
  cases selection with
  | only alternative => cases next
  | cons alternative others =>
      cases next
      exact valid.2

/-- All parts of a tree of valid words have valid words. -/
theorem Node.wordsValid_of_mem_visited
    {shape : Shape}
    {node : Node shape}
    (valid : node.WordsValid) :
    ∀ part ∈ node.visited, part.node.WordsValid := by
  induction node with
  | literal text
  | star =>
      intro part member
      rw [List.mem_singleton.1 member]
      exact valid
  | ofWord _ inductionHypothesis
  | ofWildcard _ inductionHypothesis
  | ofName _ inductionHypothesis
  | ofSubSelection _ inductionHypothesis
  | ofField _ inductionHypothesis
  | ofChain _ inductionHypothesis
  | only _ inductionHypothesis =>
      exact List.forall_mem_cons.2 ⟨valid, inductionHypothesis valid⟩
  | scope name body nameHypothesis bodyHypothesis =>
      rw [visited, List.forall_mem_cons, List.forall_mem_append]
      exact ⟨valid, nameHypothesis valid.1, bodyHypothesis valid.2⟩
  | slash init last initHypothesis lastHypothesis =>
      rw [visited, List.forall_mem_cons, List.forall_mem_append]
      exact ⟨valid, initHypothesis valid.1, lastHypothesis valid.2⟩
  | cons alternative rest alternativeHypothesis restHypothesis =>
      rw [visited, List.forall_mem_cons, List.forall_mem_append]
      refine ⟨valid, alternativeHypothesis valid.1, ?_⟩
      intro part member
      exact restHypothesis valid.2 part (List.mem_of_mem_tail member)

/-! ## The workbench -/

namespace Workbench

/-- All words of all nodes are valid. -/
def StackValid (stack : List AnyNode) : Prop := ∀ node ∈ stack, node.node.WordsValid

theorem stackValid_cons_iff
    {top : AnyNode}
    {stack : List AnyNode} :
    StackValid (top :: stack) ↔ top.node.WordsValid ∧ StackValid stack :=
  List.forall_mem_cons

theorem grants_shaped
    {Result : Type}
    {property : Result → Prop}
    {wrapped : Option Result}
    (each : ∀ result, wrapped = some result → property result) :
    Grants (step.shaped wrapped) property := by
  cases wrapped with
  | none => exact Grants.error StepError.wrongShape
  | some result => exact Grants.ok (each result rfl)

theorem grants_ofText
    (text : String) :
    Grants ((Word.ofText text).mapError StepError.invalidWord) Node.WordsValid := by
  cases made : Word.ofText text with
  | error refusal => exact Grants.error (StepError.invalidWord refusal)
  | ok word =>
      obtain ⟨valid, rfl⟩ := Word.ofText_eq_ok_iff.1 made
      exact Grants.ok valid

/-- A step may put a node on top that is made of a wrapped one. -/
theorem grants_put_shaped
    {Result : Type}
    {shape : Shape}
    {wrapped : Option Result}
    {make : Result → Node shape}
    {stack : List AnyNode}
    (stackValid : StackValid stack)
    (each : ∀ result, wrapped = some result → (make result).WordsValid) :
    Grants
      (do
        let result ← step.shaped wrapped
        pure (⟨shape, make result⟩ :: stack, (none : Option BuildAnswer)))
      fun result => StackValid result.1 := by
  refine (grants_shaped each).bind ?_
  intro result valid
  exact Grants.ok (stackValid_cons_iff.2 ⟨valid, stackValid⟩)

/-- A step of building leaves nodes with valid words. -/
theorem step_grants
    (request : BuildStep)
    {stack : List AnyNode}
    (valid : StackValid stack) :
    Grants (step request stack) fun result => StackValid result.1 := by
  match request, stack with
  | .word text, stack =>
      refine (grants_ofText text).bind ?_
      intro word wordValid
      exact Grants.ok (stackValid_cons_iff.2 ⟨wordValid, valid⟩)
  | .wildcard, stack => exact Grants.ok (stackValid_cons_iff.2 ⟨True.intro, valid⟩)
  | .name, top :: stack =>
      obtain ⟨topValid, stackValid⟩ := stackValid_cons_iff.1 valid
      exact grants_put_shaped stackValid fun _ => top.wordsValid_of_name? topValid
  | .field, top :: stack =>
      obtain ⟨topValid, stackValid⟩ := stackValid_cons_iff.1 valid
      exact grants_put_shaped stackValid fun _ => top.wordsValid_of_field? topValid
  | .selector, top :: stack =>
      obtain ⟨topValid, stackValid⟩ := stackValid_cons_iff.1 valid
      exact grants_put_shaped stackValid fun _ => top.wordsValid_of_selector? topValid
  | .chain, last :: init :: stack =>
      obtain ⟨lastValid, othersValid⟩ := stackValid_cons_iff.1 valid
      obtain ⟨initValid, stackValid⟩ := stackValid_cons_iff.1 othersValid
      refine (grants_shaped fun _ => init.wordsValid_of_selector? initValid).bind ?_
      intro newInit newInitValid
      apply grants_put_shaped stackValid
      intro newLast wrapped
      exact ⟨newInitValid, last.wordsValid_of_field? lastValid wrapped⟩
  | .subSelection, body :: name :: stack =>
      obtain ⟨bodyValid, othersValid⟩ := stackValid_cons_iff.1 valid
      obtain ⟨nameValid, stackValid⟩ := stackValid_cons_iff.1 othersValid
      refine (grants_shaped fun _ => name.wordsValid_of_name? nameValid).bind ?_
      intro newName newNameValid
      apply grants_put_shaped stackValid
      intro newBody same
      exact ⟨newNameValid, body.wordsValid_of_selection? bodyValid same⟩
  | .only, alternative :: stack =>
      obtain ⟨alternativeValid, stackValid⟩ := stackValid_cons_iff.1 valid
      exact grants_put_shaped stackValid fun _ =>
        alternative.wordsValid_of_selector? alternativeValid
  | .cons, rest :: alternative :: stack =>
      obtain ⟨restValid, othersValid⟩ := stackValid_cons_iff.1 valid
      obtain ⟨alternativeValid, stackValid⟩ := stackValid_cons_iff.1 othersValid
      refine (grants_shaped fun _ => alternative.wordsValid_of_selector? alternativeValid).bind ?_
      intro selector selectorValid
      apply grants_put_shaped stackValid
      intro selection same
      exact ⟨selectorValid, rest.wordsValid_of_selection? restValid same⟩
  | .next, top :: stack =>
      obtain ⟨topValid, stackValid⟩ := stackValid_cons_iff.1 valid
      refine (grants_shaped fun _ => top.wordsValid_of_selection? topValid).bind ?_
      intro selection selectionValid
      cases next : Node.next? selection with
      | none => exact Grants.error StepError.noNext
      | some rest =>
          have restValid := Node.wordsValid_next? selectionValid next
          exact Grants.ok (stackValid_cons_iff.2 ⟨restValid, stackValid⟩)
  | .duplicate, top :: stack =>
      have topValid := (stackValid_cons_iff.1 valid).1
      rw [← top.node.clone_eq] at topValid
      exact Grants.ok (stackValid_cons_iff.2 ⟨topValid, valid⟩)
  | .copy, top :: stack =>
      have topValid := (stackValid_cons_iff.1 valid).1
      rw [← top.node.copy_eq] at topValid
      exact Grants.ok (stackValid_cons_iff.2 ⟨topValid, valid⟩)
  | .drop, _ :: stack => exact Grants.ok (stackValid_cons_iff.1 valid).2
  | .swap, top :: below :: stack =>
      obtain ⟨topValid, othersValid⟩ := stackValid_cons_iff.1 valid
      obtain ⟨belowValid, stackValid⟩ := stackValid_cons_iff.1 othersValid
      apply Grants.ok
      exact stackValid_cons_iff.2 ⟨belowValid, stackValid_cons_iff.2 ⟨topValid, stackValid⟩⟩
  | .compare, top :: below :: stack =>
      refine (Grants.trivial (step.shaped (below.compare? top))).bind ?_
      intro _ _
      exact Grants.ok valid
  | .select path, top :: stack => exact Grants.ok valid
  | .name, []
  | .field, []
  | .selector, []
  | .chain, []
  | .chain, [_]
  | .subSelection, []
  | .subSelection, [_]
  | .only, []
  | .cons, []
  | .cons, [_]
  | .next, []
  | .duplicate, []
  | .copy, []
  | .drop, []
  | .swap, []
  | .swap, [_]
  | .compare, []
  | .compare, [_]
  | .select _, [] => exact Grants.error StepError.shallow

theorem perform_grants
    {bench : Workbench}
    (valid : StackValid bench.stack)
    (request : BuildStep) :
    Grants (bench.perform request) fun result => StackValid result.1.stack := by
  intro result done
  unfold perform at done
  cases stepped : step request bench.stack with
  | error refusal => simp [stepped, Except.map] at done
  | ok outcome =>
      obtain rfl : _ = result := by simpa [stepped, Except.map] using done
      exact step_grants request valid outcome stepped

theorem stackValid_performAll
    {bench : Workbench}
    (valid : StackValid bench.stack)
    (requests : List BuildStep) :
    StackValid (bench.performAll requests).stack := by
  induction requests generalizing bench with
  | nil => exact valid
  | cons request requests inductionHypothesis =>
      apply inductionHypothesis
      dsimp only
      split
      · rename_i next answer done
        exact perform_grants valid request (next, answer) done
      · exact valid

theorem stackValid_put
    {bench : Workbench}
    {node : Option AnyNode}
    (valid : StackValid bench.stack)
    (nodeValid : ∀ given ∈ node, given.node.WordsValid) :
    StackValid (bench.put node).stack := by
  cases node with
  | none => exact valid
  | some given => exact stackValid_cons_iff.2 ⟨nodeValid given rfl, valid⟩

theorem stackValid_replaceTop
    {bench : Workbench}
    {replacement : AnyNode → AnyNode}
    (valid : StackValid bench.stack)
    (staysValid : ∀ node : AnyNode, node.node.WordsValid → (replacement node).node.WordsValid) :
    StackValid (bench.replaceTop replacement).stack := by
  unfold replaceTop
  split
  · exact valid
  · rename_i top below stacked
    rw [stacked] at valid
    obtain ⟨topValid, belowValid⟩ := stackValid_cons_iff.1 valid
    exact stackValid_cons_iff.2 ⟨staysValid top topValid, belowValid⟩

/-- An operation leaves nodes with valid words. -/
theorem stackValid_carryOut
    {bench : Workbench}
    (valid : StackValid bench.stack)
    (operation : Operation) :
    StackValid (bench.carryOut operation).stack := by
  cases operation with
  | read text =>
      apply stackValid_put valid
      intro given member
      cases parsed : parse text with
      | error error => simp [parsed, Except.toOption] at member
      | ok selection =>
          obtain rfl : _ = given := by simpa [parsed, Except.toOption] using member
          exact (parse_eq_ok_iff_render.1 parsed).1
  | build request => exact stackValid_performAll valid [request]
  | fetch position =>
      apply stackValid_put valid
      intro given member
      exact valid given (List.mem_of_getElem? member)
  | part position =>
      apply stackValid_put valid
      intro given member
      obtain ⟨top, first, listed⟩ := Option.bind_eq_some_iff.1 member
      rw [Node.nodes_eq_visited] at listed
      have topValid := valid top (List.mem_of_head? first)
      exact Node.wordsValid_of_mem_visited topValid given (List.mem_of_getElem? listed)
  | edit rules =>
      apply stackValid_replaceTop valid
      intro node nodeValid
      rw [Node.edit_eq_rewrite]
      exact rules.strategy.run_folder_ensures node.node {} nodeValid
  | rewrite strategy state =>
      apply stackValid_replaceTop valid
      intro node nodeValid
      exact strategy.run_folder_ensures node.node state nodeValid

theorem stackValid_carryOutAll
    {bench : Workbench}
    (valid : StackValid bench.stack)
    (operations : List Operation) :
    StackValid (bench.carryOutAll operations).stack := by
  induction operations generalizing bench with
  | nil => exact valid
  | cons operation operations inductionHypothesis =>
      exact inductionHypothesis (stackValid_carryOut valid operation)

/-- Whatever operations are carried out on an empty workbench, in whatever order, every tree on it
has only words that the check accepts, and its text is read as exactly that tree. -/
theorem parse_render_of_mem_carryOutAll
    (operations : List Operation) :
    ∀ node ∈ (carryOutAll {} operations).stack,
      (∀ word, .word word ∈ node.node.tokens → Word.ofText word = .ok (.literal word))
        ∧ parse node.node.render = .ok node.asSelection := by
  intro node member
  have empty : StackValid ({} : Workbench).stack := fun _ none => by cases none
  have valid := stackValid_carryOutAll empty operations node member
  refine ⟨?_, AnyNode.parse_render_of_wordsValid valid⟩
  intro word inTokens
  have wordValid : ValidWord word := node.node.wordsValid_iff_tokens.1 valid _ inTokens
  exact Word.ofText_eq_ok_iff.2 ⟨wordValid, rfl⟩

/-- The chain of two words, built of them and then replaced by its last step. -/
theorem parse_render_of_mem_carryOutAll_last_step :
    AnyNode.mk .selector (.ofField (.ofName (.ofWord (.literal "c"))))
        ∈ (carryOutAll {}
          [.build (.word "b"), .build .selector, .build (.word "c"), .build .field, .build .chain,
            .build .selector, .edit { lastStep := true }]).stack
      ∧ .word "c" ∈ (Node.ofField (.ofName (.ofWord (.literal "c")))).tokens
      ∧ Word.ofText "c" = .ok (.literal "c")
      ∧ parse (Node.ofField (.ofName (.ofWord (.literal "c")))).render
          = .ok (.only (.ofField (.ofName (.ofWord (.literal "c"))))) := by
  have edited : (Node.edit (.ofChain (.slash (.ofField (.ofName (.ofWord (.literal "b"))))
      (.ofName (.ofWord (.literal "c"))))) { lastStep := true }).1
        = .ofField (.ofName (.ofWord (.literal "c"))) := by
    unfold Node.edit
    generalize made : EditRules.folder { lastStep := true } = folder
    have word : ∀ state, ((folder.run (.literal "c")).run state).1 = .literal "c" := by
      rw [Traversal.run_eq, ← made]
      exact fun _ => rfl
    have name : ∀ state,
        ((folder.run (.ofWord (.literal "c"))).run state).1 = .ofWord (.literal "c") := by
      rw [Traversal.run_eq, ← made]
      exact fun _ => congrArg Node.ofWord (made ▸ word _)
    have field : ∀ state,
        ((folder.run (.ofName (.ofWord (.literal "c")))).run state).1
          = .ofName (.ofWord (.literal "c")) := by
      rw [Traversal.run_eq, ← made]
      exact fun _ => congrArg Node.ofName (made ▸ name _)
    rw [Traversal.run_eq, ← made]
    exact congrArg Node.ofField (made ▸ field _)
  refine (and_iff_left_of_imp fun member => ?_).2 ?_
  · have ⟨accepted, reads⟩ := parse_render_of_mem_carryOutAll _ _ member
    have inTokens : .word "c" ∈ (Node.ofField (.ofName (.ofWord (.literal "c")))).tokens := by decide
    exact ⟨inTokens, accepted "c" inTokens, reads⟩
  · rw [← edited]
    exact List.mem_cons_self

end Workbench

end FieldSelection
