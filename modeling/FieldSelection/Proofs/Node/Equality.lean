import FieldSelection.Node.Builder
import FieldSelection.Node.Equality
import FieldSelection.Proofs.Node.Folding

/-!
Contract: which trees are equal.

Owns:
- `Node.equals` as equality of the whole trees, and the builder's comparison as this one;
- a clone as the node itself.

Does not own: which trees are hashed alike (`FieldSelection.Proofs.Node.Digest`).

A selection is compared and cloned through the flat list of its alternatives, and is
determined by this list.
-/

set_option autoImplicit false

namespace FieldSelection

/-! ## Comparison -/

theorem agreeInStep_map
    {Left Right Other : Type}
    (agree : Other → Right → Bool)
    (change : Left → Other)
    (lefts : List Left)
    (rights : List Right) :
    agreeInStep (fun left right => agree (change left) right) lefts rights
      = agreeInStep agree (lefts.map change) rights := by
  induction lefts generalizing rights with
  | nil => cases rights <;> rfl
  | cons left lefts inductionHypothesis =>
      cases rights with
      | nil => rfl
      | cons right rights =>
          show (agree (change left) right && _) = (agree (change left) right && _)
          rw [inductionHypothesis]

/-- Lists agree in step exactly if they are equal, given that this is so of their entries. -/
theorem agreeInStep_iff
    {Item : Type}
    {agree : Item → Item → Bool}
    {lefts rights : List Item}
    (entries : ∀ left ∈ lefts, ∀ right, agree left right = true ↔ left = right) :
    agreeInStep agree lefts rights = true ↔ lefts = rights := by
  induction lefts generalizing rights with
  | nil => cases rights <;> simp [agreeInStep]
  | cons left lefts inductionHypothesis =>
      obtain ⟨entry, laterEntries⟩ := List.forall_mem_cons.1 entries
      cases rights with
      | nil => simp [agreeInStep]
      | cons right rights =>
          rw [agreeInStep, Bool.and_eq_true, entry, inductionHypothesis laterEntries,
            List.cons.injEq]

namespace Node

/-- One step of the comparison, which goes on below with the comparison itself. -/
theorem equals_eq
    {shape : Shape}
    (left right : Node shape) :
    left.equals right = comparison shape left (fun below _ => below.equals) right := by
  unfold equals
  rw [Traversal.run_eq]

/-- Selections are compared alternative by alternative. -/
theorem equals_selection
    (left right : Selection) :
    left.equals right = agreeInStep equals left.alternatives right.alternatives := by
  rw [equals_eq]
  show agreeInStep (fun alternative other => equals alternative.val other)
      left.alternatives.attach right.alternatives = _
  rw [agreeInStep_map equals Subtype.val, List.attach_map_subtype_val]

/-- Two nodes compare as equal exactly if they are one tree. -/
theorem equals_iff
    {shape : Shape}
    (left right : Node shape) :
    left.equals right = true ↔ left = right := by
  match shape, left, right with
  | .selection, left, right =>
      rw [equals_selection, agreeInStep_iff]
      · exact ⟨alternatives_injective, congrArg alternatives⟩
      · intro alternative member other
        have smaller := sizeOf_lt_of_mem_alternatives member
        exact equals_iff alternative other
  | .chain, .slash init last, .slash otherInit otherLast =>
      rw [equals_eq]
      simp [comparison, equals_iff init otherInit, equals_iff last otherLast]
  | .subSelection, .scope name body, .scope otherName otherBody =>
      rw [equals_eq]
      simp [comparison, equals_iff name otherName, equals_iff body otherBody]
  | .selector, .ofField left, .ofField right
  | .selector, .ofChain left, .ofChain right
  | .field, .ofName left, .ofName right
  | .field, .ofSubSelection left, .ofSubSelection right
  | .name, .ofWord left, .ofWord right
  | .name, .ofWildcard left, .ofWildcard right =>
      rw [equals_eq]
      simp [comparison, equals_iff left right]
  | .selector, .ofField _, .ofChain _
  | .selector, .ofChain _, .ofField _
  | .field, .ofName _, .ofSubSelection _
  | .field, .ofSubSelection _, .ofName _
  | .name, .ofWord _, .ofWildcard _
  | .name, .ofWildcard _, .ofWord _
  | .word, .literal _, .literal _
  | .wildcard, .star, .star =>
      rw [equals_eq]
      simp [comparison]
termination_by sizeOf left

/-- The comparison that is asked for while trees are built is this one. -/
theorem compare?_eq
    {shape : Shape}
    (left right : Node shape) :
    AnyNode.compare? ⟨shape, left⟩ ⟨shape, right⟩
      = some (left.equals right, left.hashedLike right) := by
  have same : decide ((⟨shape, left⟩ : AnyNode) = ⟨shape, right⟩) = left.equals right := by
    rw [Bool.eq_iff_iff, decide_eq_true_eq, equals_iff]
    simp
  unfold AnyNode.compare?
  rw [if_pos rfl, same]

/-! ## Clones -/

/-- Clones are made as copies are, without a folder in between. -/
theorem cloning_eq_rebuild : cloning = (rebuild : Folder Id) := by
  funext shape node clone
  match shape, node with
  | .selection, selection =>
      have mapped := List.mapM_pure (m := Id) (l := selection.alternatives.attach)
        (f := fun alternative =>
          clone alternative.val (sizeOf_lt_of_mem_alternatives alternative.property))
      exact congrArg selection.withAlternatives mapped.symm
  | .selector, .ofField _
  | .selector, .ofChain _
  | .chain, .slash _ _
  | .field, .ofName _
  | .field, .ofSubSelection _
  | .subSelection, .scope _ _
  | .name, .ofWord _
  | .name, .ofWildcard _
  | .word, .literal _
  | .wildcard, .star => rfl

theorem clone_eq
    {shape : Shape}
    (node : Node shape) :
    node.clone = node := by
  unfold clone
  rw [cloning_eq_rebuild]
  exact node.copy_eq

end Node

end FieldSelection
