import FieldSelection.Node.Traversal

/-!
Contract: the comparison of two trees, and clones.

Owns:
- `Node.equals`, which compares two nodes of one shape part by part;
- `Node.clone`, a node made anew of clones of its parts.

Does not own: the copies that a folder makes (`Node.copy`), or the sequence by which
trees are hashed (`FieldSelection.Node.Digest`).

A selection is compared and cloned by a loop over its alternatives, so that a long list
is no deep tree. The loop of the comparison takes both lists in step, and at the end of
one of them asks whether the other has ended as well.
-/

set_option autoImplicit false

namespace FieldSelection

/-- Whether the entries of two lists agree in pairs, with none left over. -/
def agreeInStep {Left Right : Type} (agree : Left → Right → Bool) : List Left → List Right → Bool
  | [], [] => true
  | left :: lefts, right :: rights => agree left right && agreeInStep agree lefts rights
  | _, _ => false

namespace Node

/-- Compares a node with another of its shape: how they are built, and then of what. -/
def comparison : Traversal fun shape => Node shape → Bool
  | .selection, left, compare => fun right =>
    agreeInStep
      (fun alternative other =>
        compare alternative.val (sizeOf_lt_of_mem_alternatives alternative.property) other)
      left.alternatives.attach right.alternatives
  | .selector, .ofField left, compare => fun
    | .ofField right => compare left field_lt right
    | .ofChain _ => false
  | .selector, .ofChain left, compare => fun
    | .ofField _ => false
    | .ofChain right => compare left chain_lt right
  | .chain, .slash init last, compare => fun
    | .slash otherInit otherLast => compare init init_lt otherInit && compare last last_lt otherLast
  | .field, .ofName left, compare => fun
    | .ofName right => compare left bareName_lt right
    | .ofSubSelection _ => false
  | .field, .ofSubSelection left, compare => fun
    | .ofName _ => false
    | .ofSubSelection right => compare left subSelection_lt right
  | .subSelection, .scope name body, compare => fun
    | .scope otherName otherBody =>
      compare name scopeName_lt otherName && compare body scopeBody_lt otherBody
  | .name, .ofWord left, compare => fun
    | .ofWord right => compare left word_lt right
    | .ofWildcard _ => false
  | .name, .ofWildcard left, compare => fun
    | .ofWord _ => false
    | .ofWildcard right => compare left wildcard_lt right
  | .word, .literal left, _ => fun
    | .literal right => left == right
  | .wildcard, .star, _ => fun
    | .star => true

def equals {shape : Shape} (left right : Node shape) : Bool := comparison.run left right

/-- Makes a node anew of clones of its parts. -/
def cloning : Traversal Node
  | .selection, selection, clone =>
    selection.withAlternatives (selection.alternatives.attach.map fun alternative =>
      clone alternative.val (sizeOf_lt_of_mem_alternatives alternative.property))
  | .selector, .ofField field, clone => .ofField (clone field field_lt)
  | .selector, .ofChain chain, clone => .ofChain (clone chain chain_lt)
  | .chain, .slash init last, clone => .slash (clone init init_lt) (clone last last_lt)
  | .field, .ofName name, clone => .ofName (clone name bareName_lt)
  | .field, .ofSubSelection subSelection, clone =>
    .ofSubSelection (clone subSelection subSelection_lt)
  | .subSelection, .scope name body, clone =>
    .scope (clone name scopeName_lt) (clone body scopeBody_lt)
  | .name, .ofWord word, clone => .ofWord (clone word word_lt)
  | .name, .ofWildcard wildcard, clone => .ofWildcard (clone wildcard wildcard_lt)
  | .word, .literal text, _ => .literal text
  | .wildcard, .star, _ => .star

def clone {shape : Shape} (node : Node shape) : Node shape := cloning.run node

end Node

end FieldSelection
