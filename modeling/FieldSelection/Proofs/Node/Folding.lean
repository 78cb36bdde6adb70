import FieldSelection.Node.Traversal

/-!
Contract: a folder of the leaves goes through a tree from left to right.

Owns:
- `Node.traverseLeaves`, the leaves replaced one after another by recursion on the tree;
- its agreement with the folder that has rules for the leaves only;
- `Node.copy_eq`, a copy as the node itself.

Does not own: any particular rule for words or wildcards.

The folder meets a selection as one flat list and rebuilds it from that list, while
the recursion takes the alternatives one by one.
-/

set_option autoImplicit false

namespace FieldSelection

/-- Replaces the leaves of a tree one after another, from left to right. -/
def Node.traverseLeaves
    {m : Type → Type}
    [Monad m]
    (onWord : Word → m Word)
    (onWildcard : Wildcard → m Wildcard) :
    {shape : Shape} → Node shape → m (Node shape)
  | _, .literal text => onWord (.literal text)
  | _, .star => onWildcard .star
  | _, .ofWord word => .ofWord <$> word.traverseLeaves onWord onWildcard
  | _, .ofWildcard wildcard => .ofWildcard <$> wildcard.traverseLeaves onWord onWildcard
  | _, .ofName name => .ofName <$> name.traverseLeaves onWord onWildcard
  | _, .ofSubSelection subSelection =>
    .ofSubSelection <$> subSelection.traverseLeaves onWord onWildcard
  | _, .scope name body => do
    let name ← name.traverseLeaves onWord onWildcard
    let body ← body.traverseLeaves onWord onWildcard
    pure (.scope name body)
  | _, .ofField field => .ofField <$> field.traverseLeaves onWord onWildcard
  | _, .ofChain chain => .ofChain <$> chain.traverseLeaves onWord onWildcard
  | _, .slash init last => do
    let init ← init.traverseLeaves onWord onWildcard
    let last ← last.traverseLeaves onWord onWildcard
    pure (.slash init last)
  | _, .only alternative => .only <$> alternative.traverseLeaves onWord onWildcard
  | _, .cons alternative rest => do
    let alternative ← alternative.traverseLeaves onWord onWildcard
    let rest ← rest.traverseLeaves onWord onWildcard
    pure (.cons alternative rest)

section Leaves

variable {m : Type → Type} [Monad m] [LawfulMonad m]
variable (onWord : Word → m Word) (onWildcard : Wildcard → m Wildcard)

theorem Folder.run_ofLeaves_selection
    (selection : Selection) :
    (Folder.ofLeaves onWord onWildcard).run selection
      = selection.withAlternatives
          <$> selection.alternatives.mapM fun alternative =>
            (Folder.ofLeaves onWord onWildcard).run alternative := by
  rw [Traversal.run_eq]
  exact rebuild_selection _ selection

theorem Folder.run_ofLeaves_cons
    (alternative : Selector)
    (rest : Selection) :
    (Folder.ofLeaves onWord onWildcard).run (.cons alternative rest)
      = (do
          let alternative ← (Folder.ofLeaves onWord onWildcard).run alternative
          let rest ← (Folder.ofLeaves onWord onWildcard).run rest
          pure (.cons alternative rest)) := by
  -- The list is rebuilt from its first entry and the others, and the rest always has a first entry.
  obtain ⟨next, later, listed⟩ := List.exists_cons_of_ne_nil rest.alternatives_ne_nil
  rw [run_ofLeaves_selection, run_ofLeaves_selection, Node.alternatives, listed]
  simp [Node.withAlternatives, Selection.ofList_cons]

/-- The folder with rules for the leaves replaces them from left to right, and nothing else. -/
theorem Folder.run_ofLeaves
    {shape : Shape}
    (node : Node shape) :
    (Folder.ofLeaves onWord onWildcard).run node = node.traverseLeaves onWord onWildcard := by
  induction node with
  | cons alternative rest alternativeHypothesis restHypothesis =>
      rw [run_ofLeaves_cons, alternativeHypothesis, restHypothesis]
      rfl
  | only alternative inductionHypothesis =>
      rw [run_ofLeaves_selection]
      simp [Node.alternatives, inductionHypothesis, Node.withAlternatives, Node.traverseLeaves]
      rfl
  | scope name body nameHypothesis bodyHypothesis =>
      rw [Traversal.run_eq]
      simp only [Folder.ofLeaves, rebuild, nameHypothesis, bodyHypothesis]
      rfl
  | slash init last initHypothesis lastHypothesis =>
      rw [Traversal.run_eq]
      simp only [Folder.ofLeaves, rebuild, initHypothesis, lastHypothesis]
      rfl
  | literal text =>
      rw [Traversal.run_eq]
      rfl
  | star =>
      rw [Traversal.run_eq]
      rfl
  | _ _ inductionHypothesis =>
      rw [Traversal.run_eq]
      simp only [Folder.ofLeaves, rebuild, inductionHypothesis]
      rfl

end Leaves

/-! ## Leaves that stay -/

theorem Node.traverseLeaves_pure
    {m : Type → Type}
    [Monad m]
    [LawfulMonad m]
    {shape : Shape}
    (node : Node shape) :
    node.traverseLeaves (m := m) pure pure = pure node := by
  induction node with
  | literal text => rfl
  | star => rfl
  | scope name body nameHypothesis bodyHypothesis =>
      simp [traverseLeaves, nameHypothesis, bodyHypothesis]
  | slash init last initHypothesis lastHypothesis =>
      simp [traverseLeaves, initHypothesis, lastHypothesis]
  | cons alternative rest alternativeHypothesis restHypothesis =>
      simp [traverseLeaves, alternativeHypothesis, restHypothesis]
  | _ _ inductionHypothesis => simp [traverseLeaves, inductionHypothesis]

theorem rebuild_eq_ofLeaves
    {m : Type → Type}
    [Monad m] :
    (rebuild : Folder m) = Folder.ofLeaves pure pure := by
  funext shape node fold
  cases shape <;> rfl

@[simp] theorem Node.copy_eq
    {shape : Shape}
    (node : Node shape) :
    node.copy = node := by
  rw [copy, rebuild_eq_ofLeaves, Folder.run_ofLeaves, traverseLeaves_pure]
  rfl

end FieldSelection
