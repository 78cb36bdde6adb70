import FieldSelection.Node.Traversal
import FieldSelection.Node.Word

/-!
Contract: rebuilding a tree by decisions that are taken at each node anew.

Owns:
- `Arrangement`, what can be done with the alternatives of a folded list;
- `Exchange`, what can be put in place of a name;
- `Strategy`, the decisions for the nodes of each shape, in a state of any kind;
- `Strategy.folder`, the folder that acts on them, and `Node.rewrite`, its run over a tree.

Does not own: fixed rules for all nodes of a tree (`EditRules`).

As with fixed rules, a text takes the place of a word only if `Word.ofText` makes a word
of it. A list keeps its alternatives if an arrangement would leave none. A node that is
left as it is does not let the strategy decide about the nodes below it.
-/

set_option autoImplicit false

namespace FieldSelection

inductive Arrangement where
  | reverse
  /-- Keep the first alternatives, as many as asked for. -/
  | truncate (count : Nat)
deriving DecidableEq, Repr

def Arrangement.apply (selection : Selection) : Arrangement → Selection
  | .reverse => selection.withAlternatives selection.alternatives.reverse
  | .truncate count => selection.withAlternatives (selection.alternatives.take count)

inductive Exchange where
  | wildcard
  | word (text : String)
deriving DecidableEq, Repr

/-- The decisions at each node, which may use and change a state. -/
structure Strategy (σ : Type) where
  /-- What is done first with every node: whether to fold it, or to leave it as it is. -/
  enter : (shape : Shape) → Node shape → StateM σ Bool
  /-- How to arrange a folded list, one arrangement after another. -/
  arrange : Selection → StateM σ (List Arrangement)
  /-- Whether the last step takes the place of a selector that is this chain. -/
  keepsLastStep : Chain → StateM σ Bool
  /-- How many wildcard steps a folded chain gets at its end. -/
  wildcardSteps : Chain → StateM σ Nat
  /-- Whether the name takes the place of a field that is this sub-selection. -/
  dropsBody : SubSelection → StateM σ Bool
  /-- Whether a wildcard takes the place of the body. -/
  opensBody : SubSelection → StateM σ Bool
  /-- What takes the place of a name, if anything does. -/
  exchange : Name → StateM σ (Option Exchange)
  /-- The text that is asked for in place of a word. -/
  respell : Word → StateM σ String
  /-- What is done if a text does not make a word. -/
  refused : SyntaxError → StateM σ Unit

/-- The chain with more steps, each a wildcard. -/
def Node.withWildcardSteps (chain : Chain) : Nat → Chain
  | 0 => chain
  | count + 1 => .slash (.ofChain (chain.withWildcardSteps count)) (.ofName (.ofWildcard .star))

namespace Strategy

variable {σ : Type} (strategy : Strategy σ)

/-- Does something else with the word that a text makes, or falls back where it makes none. -/
def withWord
    {Result : Type}
    (text : String)
    (use : Word → Result)
    (fallback : StateM σ Result) :
    StateM σ Result :=
  match Word.ofText text with
  | .ok word => pure (use word)
  | .error refusal => do
    strategy.refused refusal
    fallback

/-- Acts on the decisions for a shape, or rebuilds the node. -/
def rule : Folder (StateM σ)
  | .selection, selection, fold => do
    let folded ← rebuild .selection selection fold
    let arrangements ← strategy.arrange folded
    pure (arrangements.foldl Arrangement.apply folded)
  | .selector, .ofChain (.slash init last), fold => do
    if ← strategy.keepsLastStep (.slash init last) then
      .ofField <$> fold last Node.lastOfChain_lt
    else
      rebuild .selector (.ofChain (.slash init last)) fold
  | .chain, chain, fold => do
    let folded ← rebuild .chain chain fold
    let count ← strategy.wildcardSteps folded
    pure (folded.withWildcardSteps count)
  | .field, .ofSubSelection (.scope name body), fold => do
    if ← strategy.dropsBody (.scope name body) then
      .ofName <$> fold name Node.nameOfSubSelection_lt
    else
      rebuild .field (.ofSubSelection (.scope name body)) fold
  | .subSelection, .scope name body, fold => do
    if ← strategy.opensBody (.scope name body) then
      let folded ← fold name Node.scopeName_lt
      pure (.scope folded (.only (.ofField (.ofName (.ofWildcard .star)))))
    else
      rebuild .subSelection (.scope name body) fold
  | .name, name, fold => do
    match ← strategy.exchange name with
    | none => rebuild .name name fold
    | some .wildcard => pure (.ofWildcard .star)
    | some (.word text) => strategy.withWord text .ofWord (rebuild .name name fold)
  | .word, word, _ => do
    let text ← strategy.respell word
    strategy.withWord text id (pure word)
  | shape, node, fold => rebuild shape node fold

/-- The folder of a strategy, which enters each node before it acts on the decisions there. -/
def folder : Folder (StateM σ)
  | shape, node, fold => do
    if ← strategy.enter shape node then
      strategy.rule shape node fold
    else
      pure node

end Strategy

/-- Rewrites a tree by a strategy, from a state on. -/
def Node.rewrite
    {σ : Type}
    {shape : Shape}
    (node : Node shape)
    (strategy : Strategy σ)
    (state : σ) :
    Node shape × σ :=
  (strategy.folder.run node).run state

end FieldSelection
