import FieldSelection.Node.Traversal

/-!
Contract: the nodes right below a node, as one list.

Owns:
- `Node.children`, in the order in which they are visited, and `Shape.isInner`, the shapes
  of the nodes that have any;
- induction over the nodes below a node;
- `walk` as a loop over the children;
- an inner node as determined by its children.

Does not own: what is done at a node before its children are visited, or after.

Seen this way a tree has three kinds of nodes: words, the wildcard, and inner nodes.
What a visitor does alike at all inner nodes needs no distinction of their shapes.
-/

set_option autoImplicit false

namespace FieldSelection

/-- Whether nodes of a shape are made of other nodes. -/
def Shape.isInner : Shape → Bool
  | .word => false
  | .wildcard => false
  | _ => true

namespace Node

/-- The nodes right below a node in source order; a list has all its alternatives right below it. -/
def children : {shape : Shape} → Node shape → List AnyNode
  | .selection, selection => selection.alternatives.map fun alternative => ⟨.selector, alternative⟩
  | .selector, .ofField field => [⟨.field, field⟩]
  | .selector, .ofChain chain => [⟨.chain, chain⟩]
  | .chain, .slash init last => [⟨.selector, init⟩, ⟨.field, last⟩]
  | .field, .ofName name => [⟨.name, name⟩]
  | .field, .ofSubSelection subSelection => [⟨.subSelection, subSelection⟩]
  | .subSelection, .scope name body => [⟨.name, name⟩, ⟨.selection, body⟩]
  | .name, .ofWord word => [⟨.word, word⟩]
  | .name, .ofWildcard wildcard => [⟨.wildcard, wildcard⟩]
  | .word, _ => []
  | .wildcard, _ => []

theorem sizeOf_lt_of_mem_children
    {child : AnyNode}
    {shape : Shape}
    {node : Node shape}
    (member : child ∈ node.children) :
    sizeOf child.node < sizeOf node := by
  match shape, node with
  | .selection, selection =>
      obtain ⟨alternative, listed, rfl⟩ := List.mem_map.1 member
      exact sizeOf_lt_of_mem_alternatives listed
  | .selector, .ofField field =>
      rw [List.mem_singleton.1 member]
      exact field_lt
  | .selector, .ofChain chain =>
      rw [List.mem_singleton.1 member]
      exact chain_lt
  | .chain, .slash init last =>
      rcases List.mem_cons.1 member with rfl | member
      · exact init_lt
      · rw [List.mem_singleton.1 member]
        exact last_lt
  | .field, .ofName name =>
      rw [List.mem_singleton.1 member]
      exact bareName_lt
  | .field, .ofSubSelection subSelection =>
      rw [List.mem_singleton.1 member]
      exact subSelection_lt
  | .subSelection, .scope name body =>
      rcases List.mem_cons.1 member with rfl | member
      · exact scopeName_lt
      · rw [List.mem_singleton.1 member]
        exact scopeBody_lt
  | .name, .ofWord word =>
      rw [List.mem_singleton.1 member]
      exact word_lt
  | .name, .ofWildcard wildcard =>
      rw [List.mem_singleton.1 member]
      exact wildcard_lt

/-- What holds of words and of the wildcard, and of an inner node if it does of its children, holds
of every node. -/
theorem induction_children
    {motive : {shape : Shape} → Node shape → Prop}
    (word : ∀ text, motive (.literal text))
    (wildcard : motive .star)
    (inner : ∀ {shape : Shape} (node : Node shape), shape.isInner = true →
      (∀ child ∈ node.children, motive child.node) → motive node)
    {shape : Shape}
    (node : Node shape) :
    motive node := by
  match shape, node with
  | .word, .literal text => exact word text
  | .wildcard, .star => exact wildcard
  | .selection, node | .selector, node | .chain, node | .field, node | .subSelection, node
  | .name, node =>
      apply inner node rfl
      intro child member
      have smaller := sizeOf_lt_of_mem_children member
      exact induction_children word wildcard inner child.node
termination_by sizeOf node

/-- An inner node is determined by its shape and its children. -/
theorem children_injective
    {shape : Shape}
    (inner : shape.isInner = true)
    {left right : Node shape}
    (same : left.children = right.children) :
    left = right := by
  match shape, left, right with
  | .selection, left, right =>
      apply alternatives_injective
      refine (List.map_inj_right ?_).1 same
      intro first second sameNode
      simpa using sameNode
  | .selector, .ofField _, .ofField _
  | .selector, .ofChain _, .ofChain _
  | .chain, .slash _ _, .slash _ _
  | .field, .ofName _, .ofName _
  | .field, .ofSubSelection _, .ofSubSelection _
  | .subSelection, .scope _ _, .scope _ _
  | .name, .ofWord _, .ofWord _
  | .name, .ofWildcard _, .ofWildcard _ => simpa [children] using same
  | .selector, .ofField _, .ofChain _
  | .selector, .ofChain _, .ofField _
  | .field, .ofName _, .ofSubSelection _
  | .field, .ofSubSelection _, .ofName _
  | .name, .ofWord _, .ofWildcard _
  | .name, .ofWildcard _, .ofWord _ => simp [children] at same

end Node

/-- A visitor that walks on visits the children one after another. -/
theorem walk_eq_forM_children
    {m : Type → Type}
    [Monad m]
    [LawfulMonad m]
    (visitor : Visitor m)
    {shape : Shape}
    (node : Node shape) :
    walk shape node (fun below _ => visitor.run below)
      = forM node.children fun child => visitor.run child.node := by
  match shape, node with
  | .selection, selection => rw [walk_selection, Node.children, List.forM_map]
  | .selector, .ofField _
  | .selector, .ofChain _
  | .chain, .slash _ _
  | .field, .ofName _
  | .field, .ofSubSelection _
  | .subSelection, .scope _ _
  | .name, .ofWord _
  | .name, .ofWildcard _
  | .word, .literal _
  | .wildcard, .star => simp [walk, Node.children]

end FieldSelection
