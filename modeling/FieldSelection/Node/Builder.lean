import FieldSelection.Matching
import FieldSelection.Node.Digest
import FieldSelection.Node.Equality
import FieldSelection.Node.Traversal
import FieldSelection.Node.Word

/-!
Contract: building trees of every shape step by step on a stack.

Owns:
- `BuildStep`, one step for each way to make, wrap, take apart, copy or ask about
  a node;
- `Workbench`, the stack of nodes, with `Workbench.perform`;
- `StepError`, the reasons for which a step is refused.

Does not own: the constructors of trees and the check of words.

A step that is refused changes nothing. The depth of the stack is checked before
the shapes of the nodes on it.
-/

set_option autoImplicit false

namespace FieldSelection

inductive BuildStep where
  | word (text : String)
  | wildcard
  | name
  | field
  | selector
  | chain
  | subSelection
  | only
  | cons
  | next
  | duplicate
  | copy
  | drop
  | swap
  | compare
  | select (path : Path)
deriving DecidableEq, Repr

inductive StepError where
  /-- The stack holds too few nodes. -/
  | shallow
  /-- A node has a shape that the step cannot use. -/
  | wrongShape
  /-- The list has only one alternative. -/
  | noNext
  | invalidWord (error : SyntaxError)
deriving DecidableEq, Repr

/-- The answer to a step that asks about nodes. -/
inductive BuildAnswer where
  | compared (equal hashedLike : Bool)
  | selected (answer : Bool)
deriving DecidableEq, Repr

/-- The nodes built so far, the newest first. -/
structure Workbench where
  stack : List AnyNode := []
deriving DecidableEq

/-- Whether two nodes are equal and whether they are hashed alike; they must be of one shape. -/
def AnyNode.compare? (left right : AnyNode) : Option (Bool × Bool) :=
  if left.shape = right.shape then
    some (decide (left = right), left.node.hashedLike right.node)
  else
    none

namespace Workbench

/-- The nodes after a step, newest first, and the answer to a step that asks. -/
def step : BuildStep → List AnyNode → Except StepError (List AnyNode × Option BuildAnswer)
  | .word text, stack => do
    let word ← (Word.ofText text).mapError .invalidWord
    pure (⟨.word, word⟩ :: stack, none)
  | .wildcard, stack => pure (⟨.wildcard, .star⟩ :: stack, none)
  | .name, top :: stack => do
    let name ← shaped top.name?
    pure (⟨.name, name⟩ :: stack, none)
  | .field, top :: stack => do
    let field ← shaped top.field?
    pure (⟨.field, field⟩ :: stack, none)
  | .selector, top :: stack => do
    let selector ← shaped top.selector?
    pure (⟨.selector, selector⟩ :: stack, none)
  | .chain, last :: init :: stack => do
    let init ← shaped init.selector?
    let last ← shaped last.field?
    pure (⟨.chain, .slash init last⟩ :: stack, none)
  | .subSelection, body :: name :: stack => do
    let name ← shaped name.name?
    let body ← shaped body.selection?
    pure (⟨.subSelection, .scope name body⟩ :: stack, none)
  | .only, alternative :: stack => do
    let alternative ← shaped alternative.selector?
    pure (⟨.selection, .only alternative⟩ :: stack, none)
  | .cons, rest :: alternative :: stack => do
    let alternative ← shaped alternative.selector?
    let rest ← shaped rest.selection?
    pure (⟨.selection, .cons alternative rest⟩ :: stack, none)
  | .next, top :: stack => do
    let selection ← shaped top.selection?
    match selection.next? with
    | none => throw .noNext
    | some rest => pure (⟨.selection, rest⟩ :: stack, none)
  | .duplicate, top :: stack => pure (⟨top.shape, top.node.clone⟩ :: top :: stack, none)
  | .copy, top :: stack => pure (⟨top.shape, top.node.copy⟩ :: top :: stack, none)
  | .drop, _ :: stack => pure (stack, none)
  | .swap, top :: below :: stack => pure (below :: top :: stack, none)
  | .compare, top :: below :: stack => do
    let (equal, hashedLike) ← shaped (below.compare? top)
    pure (top :: below :: stack, some (.compared equal hashedLike))
  | .select path, top :: stack =>
    pure (top :: stack, some (.selected (top.node.selects path)))
  | _, _ => throw .shallow
where
  /-- Refuses a node that could not be wrapped. -/
  shaped {Result : Type} : Option Result → Except StepError Result
    | some result => pure result
    | none => throw .wrongShape

/-- Performs one step: the nodes after it and its answer, or the reason why nothing was changed. -/
def perform
    (bench : Workbench)
    (request : BuildStep) :
    Except StepError (Workbench × Option BuildAnswer) :=
  (step request bench.stack).map fun (stack, answer) => (⟨stack⟩, answer)

/-- Steps one after another; a step that is refused is passed over. -/
def performAll (bench : Workbench) (requests : List BuildStep) : Workbench :=
  requests.foldl
    (fun current request =>
      match current.perform request with
      | .ok (next, _) => next
      | .error _ => current)
    bench

end Workbench

end FieldSelection
