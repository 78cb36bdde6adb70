import FieldSelection.Proofs.Node.Visiting
import Mathlib.Data.List.Basic

/-!
Contract: the events of a full visit are brackets around the events below, and they tell the tree.

Owns:
- `Event.Balanced`, the sequences in which each shape that is entered is left again, in
  the reverse order of entering;
- `Event.prune`, which takes out of such a sequence what lies within some shapes;
- the events at a node in terms of those at its children;
- the tree as determined by its events, and the events of a visit that leaves parts of a
  tree out as determined by those of the full visit.

Does not own: the default order of visits (`walk`).

No trace is the beginning of another one, whatever follows the two. So the traces of the
children of a node can be told apart, up to the event that leaves the node.
-/

set_option autoImplicit false

namespace FieldSelection

namespace Event

/-- The events at a node of a shape, around those below it. -/
def enclose (shape : Shape) (events : List Event) : List Event :=
  .enter shape :: (events ++ [.leave shape])

/-- Each shape that is entered is left again, after all that was entered in between. -/
inductive Balanced : List Event → Prop where
  | nil : Balanced []
  | append {first later : List Event} : Balanced first → Balanced later → Balanced (first ++ later)
  | word (text : String) : Balanced [.word text]
  | wildcard : Balanced [.wildcard]
  | enclose (shape : Shape) {events : List Event} :
      Balanced events → Balanced (enclose shape events)

/-- The events without those strictly between the entering and the leaving of the chosen shapes. The
number counts the shapes that were entered and not yet left, from a chosen one on. -/
def prune (chosen : Shape → Bool) : Nat → List Event → List Event
  | _, [] => []
  | 0, .enter shape :: events => .enter shape :: prune chosen (if chosen shape then 1 else 0) events
  | 0, event :: events => event :: prune chosen 0 events
  | depth + 1, .enter _ :: events => prune chosen (depth + 2) events
  | depth + 1, .leave shape :: events =>
    if depth = 0 then .leave shape :: prune chosen 0 events else prune chosen depth events
  | depth + 1, _ :: events => prune chosen (depth + 1) events

end Event

/-! ## The events at a node -/

section Trace

variable (leaf : Shape → Bool)

theorem Node.trace_literal (text : String) : (Node.literal text).trace leaf = [.word text] := by
  rw [trace, recorded, Traversal.run_eq]
  rfl

theorem Node.trace_star : Node.star.trace leaf = [.wildcard] := by
  rw [trace, recorded, Traversal.run_eq]
  rfl

/-- The events at an inner node, given that those at its children are known. -/
theorem Recorder.run_events_of_children
    {shape : Shape}
    (inner : shape.isInner = true)
    {node : Node shape}
    (below : ∀ child ∈ node.children,
      (events leaf).run child.node = forM (child.node.trace leaf) record) :
    (events leaf).run node
      = forM (Event.enclose shape
          (if leaf shape then [] else node.children.flatMap fun child => child.node.trace leaf))
          record := by
  have rule : (events leaf).run node
      = (do
          record (.enter shape)
          unless leaf shape do walk shape node fun below _ => (events leaf).run below
          record (.leave shape)) := by
    rw [Traversal.run_eq]
    cases shape with
    | word => cases inner
    | wildcard => cases inner
    | _ => rfl
  rw [rule, walk_eq_forM_children, forM_eq_forM_flatMap below]
  by_cases pruned : leaf shape = true
  · simp [pruned, Event.enclose]
  · simp [pruned, Event.enclose]

/-- A visitor of events is a loop over the events that it records. -/
theorem Recorder.run_events
    {shape : Shape}
    (node : Node shape) :
    (events leaf).run node = forM (node.trace leaf) record := by
  induction node using Node.induction_children with
  | word text =>
      rw [Node.trace_literal, Traversal.run_eq]
      simp [events]
  | wildcard =>
      rw [Node.trace_star, Traversal.run_eq]
      simp [events]
  | inner node inner inductionHypothesis =>
      have run := run_events_of_children leaf inner inductionHypothesis
      rw [Node.trace, Node.recorded_eq_of_run_eq run]
      exact run

/-- The events at an inner node enclose those at its children, unless the visit turns back there. -/
theorem Node.trace_inner
    {shape : Shape}
    (inner : shape.isInner = true)
    (node : Node shape) :
    node.trace leaf
      = Event.enclose shape
          (if leaf shape then [] else node.children.flatMap fun child => child.node.trace leaf) :=
  recorded_eq_of_run_eq
    (Recorder.run_events_of_children leaf inner fun child _ => Recorder.run_events leaf child.node)

end Trace

/-! ## Brackets -/

theorem Event.Balanced.flatMap
    {Part : Type}
    {parts : List Part}
    {found : Part → List Event}
    (each : ∀ part ∈ parts, Balanced (found part)) :
    Balanced (parts.flatMap found) := by
  induction parts with
  | nil => exact .nil
  | cons part parts inductionHypothesis =>
      have othersBalanced := inductionHypothesis fun other member => each other (by simp [member])
      exact .append (each part (by simp)) othersBalanced

theorem Node.balanced_trace
    (leaf : Shape → Bool)
    {shape : Shape}
    (node : Node shape) :
    Event.Balanced (node.trace leaf) := by
  induction node using induction_children with
  | word text =>
      rw [trace_literal]
      exact .word text
  | wildcard =>
      rw [trace_star]
      exact .wildcard
  | inner node inner inductionHypothesis =>
      rw [trace_inner leaf inner]
      apply Event.Balanced.enclose
      split
      · exact .nil
      · exact .flatMap inductionHypothesis

/-! ## Visits that leave parts out -/

namespace Event

variable {chosen : Shape → Bool}

/-- Within a chosen shape, nothing is kept of what is entered and left again. -/
theorem prune_balanced_append
    {events : List Event}
    (balanced : Balanced events)
    (depth : Nat)
    (rest : List Event) :
    prune chosen (depth + 1) (events ++ rest) = prune chosen (depth + 1) rest := by
  induction balanced generalizing depth rest with
  | nil => rfl
  | append _ _ firstHypothesis laterHypothesis =>
      rw [List.append_assoc, firstHypothesis, laterHypothesis]
  | word text => rfl
  | wildcard => rfl
  | enclose shape _ inductionHypothesis =>
      rw [enclose, List.cons_append, List.append_assoc, prune, inductionHypothesis]
      rfl

theorem prune_append
    {first : List Event}
    (balanced : Balanced first)
    (later : List Event) :
    prune chosen 0 (first ++ later) = prune chosen 0 first ++ prune chosen 0 later := by
  induction balanced generalizing later with
  | nil => rfl
  | append _ _ firstHypothesis laterHypothesis =>
      rw [List.append_assoc, firstHypothesis, laterHypothesis, firstHypothesis, List.append_assoc]
  | word text => rfl
  | wildcard => rfl
  | @enclose shape events balanced inductionHypothesis =>
      rw [enclose, List.cons_append, List.append_assoc, prune, prune]
      by_cases turnsBack : chosen shape = true
      · rw [if_pos turnsBack, prune_balanced_append balanced, prune_balanced_append balanced]
        rfl
      · rw [if_neg turnsBack, inductionHypothesis, inductionHypothesis [.leave shape]]
        simp [prune]

/-- Of a chosen shape only its brackets are kept, and of another one also what is kept within. -/
theorem prune_enclose
    (shape : Shape)
    {events : List Event}
    (balanced : Balanced events) :
    prune chosen 0 (enclose shape events)
      = enclose shape (if chosen shape then [] else prune chosen 0 events) := by
  rw [enclose, prune]
  by_cases turnsBack : chosen shape = true
  · rw [if_pos turnsBack, if_pos turnsBack, prune_balanced_append balanced]
    rfl
  · rw [if_neg turnsBack, if_neg turnsBack, prune_append balanced]
    rfl

theorem prune_flatMap
    {Part : Type}
    {parts : List Part}
    {found : Part → List Event}
    (each : ∀ part ∈ parts, Balanced (found part)) :
    prune chosen 0 (parts.flatMap found) = parts.flatMap fun part => prune chosen 0 (found part) := by
  induction parts with
  | nil => rfl
  | cons part parts inductionHypothesis =>
      have others := inductionHypothesis fun other member => each other (by simp [member])
      rw [List.flatMap_cons, prune_append (each part (by simp)), others, List.flatMap_cons]

end Event

theorem Node.trace_eq_prune
    (leaf : Shape → Bool)
    {shape : Shape}
    (node : Node shape) :
    node.trace leaf = Event.prune leaf 0 (node.trace fun _ => false) := by
  induction node using induction_children with
  | word text =>
      rw [trace_literal, trace_literal]
      rfl
  | wildcard =>
      rw [trace_star, trace_star]
      rfl
  | @inner shape node inner inductionHypothesis =>
      have childrenBalanced : ∀ child ∈ node.children,
          Event.Balanced (child.node.trace fun _ => false) :=
        fun child _ => child.node.balanced_trace _
      rw [trace_inner _ inner, trace_inner _ inner, if_neg Bool.false_ne_true,
        Event.prune_enclose shape (.flatMap childrenBalanced), Event.prune_flatMap childrenBalanced,
        List.flatMap_congr inductionHypothesis]

/-! ## Traces that follow one another -/

namespace Node

/-- A trace begins with an event that leaves no shape. -/
theorem exists_trace_eq_cons
    (leaf : Shape → Bool)
    {shape : Shape}
    (node : Node shape) :
    ∃ event events, node.trace leaf = event :: events ∧ ∀ left, event ≠ .leave left := by
  induction node using induction_children with
  | word text => exact ⟨.word text, [], trace_literal leaf text, by simp⟩
  | wildcard => exact ⟨.wildcard, [], trace_star leaf, by simp⟩
  | inner node inner _ => exact ⟨_, _, trace_inner leaf inner node, by simp⟩

/-- The trace of one node is not the beginning of the trace of another. -/
abbrev TraceDistinct {shape : Shape} (left : Node shape) : Prop :=
  ∀ {other : Shape} (right : Node other) (leftRest rightRest : List Event),
    left.trace (fun _ => false) ++ leftRest = right.trace (fun _ => false) ++ rightRest →
      (⟨shape, left⟩ : AnyNode) = ⟨other, right⟩ ∧ leftRest = rightRest

theorem flatMap_trace_injective
    {left right : List AnyNode}
    (each : ∀ child ∈ left, child.node.TraceDistinct)
    {shape other : Shape}
    {leftRest rightRest : List Event}
    (same : (left.flatMap fun child => child.node.trace fun _ => false) ++ .leave shape :: leftRest
      = (right.flatMap fun child => child.node.trace fun _ => false) ++ .leave other :: rightRest) :
    left = right ∧ leftRest = rightRest := by
  induction left generalizing right with
  | nil =>
      cases right with
      | nil =>
          have sameEnd : shape = other ∧ leftRest = rightRest := by simpa using same
          exact ⟨rfl, sameEnd.2⟩
      | cons second right =>
          obtain ⟨event, events, begins, notLeft⟩ := second.node.exists_trace_eq_cons fun _ => false
          simp [begins, (notLeft shape).symm] at same
  | cons first left inductionHypothesis =>
      cases right with
      | nil =>
          obtain ⟨event, events, begins, notLeft⟩ := first.node.exists_trace_eq_cons fun _ => false
          simp [begins, notLeft other] at same
      | cons second right =>
          rw [List.flatMap_cons, List.append_assoc, List.flatMap_cons, List.append_assoc] at same
          obtain ⟨sameFirst, sameLater⟩ := each first (by simp) second.node _ _ same
          have othersEach : ∀ child ∈ left, child.node.TraceDistinct :=
            fun child member => each child (by simp [member])
          obtain ⟨sameOthers, sameRest⟩ := inductionHypothesis othersEach sameLater
          exact ⟨congrArg₂ List.cons sameFirst sameOthers, sameRest⟩

theorem traceDistinct
    {shape : Shape}
    (left : Node shape) :
    left.TraceDistinct := by
  induction left using induction_children with
  | word text =>
      intro other right leftRest rightRest same
      rw [trace_literal] at same
      cases right using induction_children with
      | word otherText => simpa [trace_literal] using same
      | wildcard => simp [trace_star] at same
      | inner right inner _ => simp [trace_inner _ inner, Event.enclose] at same
  | wildcard =>
      intro other right leftRest rightRest same
      rw [trace_star] at same
      cases right using induction_children with
      | word text => simp [trace_literal] at same
      | wildcard => simpa [trace_star] using same
      | inner right inner _ => simp [trace_inner _ inner, Event.enclose] at same
  | @inner shape left inner inductionHypothesis =>
      intro other right leftRest rightRest same
      rw [trace_inner _ inner] at same
      cases right using induction_children with
      | word text => simp [trace_literal, Event.enclose] at same
      | wildcard => simp [trace_star, Event.enclose] at same
      | @inner other right otherInner _ =>
          rw [trace_inner _ otherInner] at same
          simp only [Event.enclose, Bool.false_eq_true, if_false, List.cons_append,
            List.append_assoc, List.cons.injEq, Event.enter.injEq] at same
          obtain ⟨rfl, sameBelow⟩ := same
          obtain ⟨sameChildren, sameRest⟩ := flatMap_trace_injective inductionHypothesis sameBelow
          exact ⟨congrArg (AnyNode.mk shape) (children_injective inner sameChildren), sameRest⟩

theorem trace_injective
    {shape : Shape}
    {left right : Node shape}
    (same : left.trace (fun _ => false) = right.trace fun _ => false) :
    left = right := by
  have distinct := left.traceDistinct right [] [] (by rw [same])
  simpa using distinct

end Node

/-- The events of every visit are balanced, wherever it turns back. Two trees have the same events
under the full visit only if they are the same. A visit that turns back at some shapes has the
events of the full visit, without those strictly between the entering and the leaving of such a
shape. -/
theorem Node.trace_brackets :
    (∀ {shape : Shape} (node : Node shape) (leaf : Shape → Bool),
        Event.Balanced (node.trace leaf))
      ∧ (∀ {shape : Shape} (left right : Node shape),
          left.trace (fun _ => false) = right.trace (fun _ => false) ↔ left = right)
      ∧ ∀ {shape : Shape} (node : Node shape) (leaf : Shape → Bool),
          node.trace leaf = Event.prune leaf 0 (node.trace fun _ => false) := by
  refine ⟨fun node leaf => node.balanced_trace leaf, ?_, fun node leaf => node.trace_eq_prune leaf⟩
  intro shape left right
  constructor
  · exact trace_injective
  · intro same
    rw [same]

end FieldSelection
