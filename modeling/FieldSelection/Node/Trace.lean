import FieldSelection.Node.Traversal
import FieldSelection.Token

/-!
Contract: what visitors report about a tree.

Owns:
- `Node.trace`, the entering and leaving of every inner node and the leaves, with
  a choice of shapes below which the visitor does not descend;
- `Node.words`, `Node.wildcardCount`, `Node.listLengths` and `Node.visitsTo`, each
  from a visitor with a rule for one shape only;
- `Node.leaves`, from a visitor with rules for words and wildcards;
- `Node.nodes`, all nodes from the root down in source order;
- `Node.preorder`, the same without the wrappers, which determines the tree.

Does not own: the default order of visits (`walk`).
-/

set_option autoImplicit false

namespace FieldSelection

/-- One report of a visitor. -/
inductive Event where
  | enter (shape : Shape)
  | leave (shape : Shape)
  | word (text : String)
  | wildcard
deriving DecidableEq, Repr

/-- A visitor that adds what it sees to the end of an array. -/
abbrev Recorder (Item : Type) : Type := Visitor (StateM (Array Item))

/-- Adds one item to the record. -/
def record {Item : Type} (item : Item) : StateM (Array Item) Unit := modify (·.push item)

/-- What a recorder sees from a node on, in order. -/
def Node.recorded
    {Item : Type}
    {shape : Shape}
    (node : Node shape)
    (recorder : Recorder Item) :
    List Item :=
  (recorder.run node #[]).2.toList

/-- Records every event, and does not descend below the shapes that are leaves to it. -/
def Recorder.events (leaf : Shape → Bool) : Recorder Event
  | .word, .literal text, _ => record (.word text)
  | .wildcard, .star, _ => record .wildcard
  | shape, node, visit => do
    record (.enter shape)
    unless leaf shape do walk shape node visit
    record (.leave shape)

def Node.trace
    {shape : Shape}
    (node : Node shape)
    (leaf : Shape → Bool) :
    List Event :=
  node.recorded (Recorder.events leaf)

/-- Records the text of each word. -/
def Recorder.words : Recorder String
  | .word, .literal text, _ => record text
  | shape, node, visit => walk shape node visit

def Node.words {shape : Shape} (node : Node shape) : List String := node.recorded Recorder.words

/-- Counts wildcards. -/
def wildcardCounter : Visitor (StateM Nat)
  | .wildcard, .star, _ => modify (· + 1)
  | shape, node, visit => walk shape node visit

def Node.wildcardCount {shape : Shape} (node : Node shape) : Nat :=
  (wildcardCounter.run node 0).2

/-- Records the number of alternatives of each list, and goes on into the list. -/
def Recorder.listLengths : Recorder Nat
  | .selection, selection, visit => do
    record selection.alternatives.length
    walk .selection selection visit
  | shape, node, visit => walk shape node visit

def Node.listLengths {shape : Shape} (node : Node shape) : List Nat :=
  node.recorded Recorder.listLengths

/-- Records each leaf as the token that it is written with. -/
def Recorder.leaves : Recorder Token
  | .word, .literal text, _ => record (.word text)
  | .wildcard, .star, _ => record .wildcard
  | shape, node, visit => walk shape node visit

def Node.leaves {shape : Shape} (node : Node shape) : List Token := node.recorded Recorder.leaves

/-- Records the nodes of one shape, and goes on below them. -/
def Recorder.visitsTo (target : Shape) : Recorder AnyNode
  | shape, node, visit => do
    if shape = target then record ⟨shape, node⟩
    walk shape node visit

def Node.visitsTo {shape : Shape} (node : Node shape) (target : Shape) : List AnyNode :=
  node.recorded (Recorder.visitsTo target)

/-- Records every node before its children. -/
def Recorder.nodes : Recorder AnyNode
  | shape, node, visit => do
    record ⟨shape, node⟩
    walk shape node visit

def Node.nodes {shape : Shape} (node : Node shape) : List AnyNode := node.recorded Recorder.nodes

/-- A node of a flat tree; what follows it is made up of its children. -/
inductive FlatNode where
  /-- As many alternatives follow. -/
  | list (length : Nat)
  /-- All steps but the last follow, then the last step. -/
  | chain
  /-- The name follows, then the body. -/
  | subSelection
  | word (text : String)
  | wildcard
deriving DecidableEq, Repr

/-- Records the nodes that are not wrappers, before their children. -/
def Recorder.preorder : Recorder FlatNode
  | .selection, selection, visit => do
    record (.list selection.alternatives.length)
    walk .selection selection visit
  | .chain, chain, visit => do
    record .chain
    walk .chain chain visit
  | .subSelection, subSelection, visit => do
    record .subSelection
    walk .subSelection subSelection visit
  | .word, .literal text, _ => record (.word text)
  | .wildcard, .star, _ => record .wildcard
  | shape, node, visit => walk shape node visit

def Node.preorder {shape : Shape} (node : Node shape) : List FlatNode :=
  node.recorded Recorder.preorder

end FieldSelection
