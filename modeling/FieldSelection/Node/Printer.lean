import FieldSelection.Node.Traversal
import FieldSelection.Token

/-!
Contract: writing a tree as text, part by part, into a sink that may refuse.

Owns:
- `Sink`, a place for text that takes or refuses each part it is offered;
- `Node.print`, which offers the spelling of each token in order and stops
  offering at the first refusal;
- `Node.render`, the whole text, and `Sink.capped`, a sink of limited size.

Does not own: the choice of tokens as a list (`FieldSelection.Node.Tokens`).

The traversal itself does not stop at a refusal: it goes on through the tree,
but with nothing more offered.
-/

set_option autoImplicit false

namespace FieldSelection

/-- A place for text: it answers whether it takes a part, and moves to its next state. -/
abbrev Sink (σ : Type) : Type := String → StateM σ Bool

/-- A printing under way: the state of the sink, and whether it has taken all parts so far. -/
structure Printing (σ : Type) where
  state : σ
  intact : Bool

/-- Offers the spelling of a token to the sink, unless a part was refused before. -/
def Sink.offer
    {σ : Type}
    (sink : Sink σ)
    (token : Token) :
    StateM (Printing σ) Unit :=
  modify fun printing =>
    if printing.intact then
      let (taken, state) := sink token.spelling printing.state
      ⟨state, taken⟩
    else
      printing

/-- Offers the tokens of a node to a sink. -/
def Sink.printer {σ : Type} (sink : Sink σ) : Visitor (StateM (Printing σ))
  | .selection, selection, visit =>
    match selection.alternatives.attach with
    | [] => pure ()
    | ⟨first, member⟩ :: rest => do
      visit first (Node.sizeOf_lt_of_mem_alternatives member)
      rest.forM fun ⟨alternative, member⟩ => do
        sink.offer .comma
        visit alternative (Node.sizeOf_lt_of_mem_alternatives member)
  | .chain, .slash init last, visit => do
    visit init Node.init_lt
    sink.offer .slash
    visit last Node.last_lt
  | .subSelection, .scope name body, visit => do
    visit name Node.scopeName_lt
    sink.offer .openParen
    visit body Node.scopeBody_lt
    sink.offer .closeParen
  | .word, .literal text, _ => sink.offer (.word text)
  | .wildcard, .star, _ => sink.offer .wildcard
  | shape, node, visit => walk shape node visit

/-- Prints a node into a sink; the answer is whether every part was taken. -/
def Node.print
    {σ : Type}
    {shape : Shape}
    (node : Node shape)
    (sink : Sink σ) :
    StateM σ Bool := fun state =>
  let printing := (sink.printer.run node ⟨state, true⟩).2
  (printing.intact, printing.state)

/-- A sink that takes everything and appends it to a text. -/
def Sink.buffer : Sink String := fun part written => (true, written ++ part)

/-- The text of a node. -/
def Node.render {shape : Shape} (node : Node shape) : String := (node.print Sink.buffer "").2

/-- What a sink of limited size holds, and how often it had to refuse. -/
structure CappedText where
  written : String := ""
  refused : Nat := 0
deriving DecidableEq, Repr

/-- A sink that refuses, whole, each part that would bring it past `cap` bytes. -/
def Sink.capped (cap : Nat) : Sink CappedText := fun part text =>
  if text.written.utf8ByteSize + part.utf8ByteSize ≤ cap then
    (true, { text with written := text.written ++ part })
  else
    (false, { text with refused := text.refused + 1 })

end FieldSelection
