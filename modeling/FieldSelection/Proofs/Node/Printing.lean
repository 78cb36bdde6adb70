import FieldSelection.Node.Printer
import FieldSelection.Node.Tokens
import FieldSelection.Proofs.Token.Lexing

/-!
Contract: a tree is printed by offering its tokens, in order.

Owns:
- the printer as a loop over the tokens of a node, for every sink;
- the text of a node as the text of its tokens;
- the tokens of a tree with valid words, as a canonical list.

Does not own: what a sink does with a part.
-/

set_option autoImplicit false

namespace FieldSelection

/-! ## The printer -/

section Printer

variable {σ : Type} (sink : Sink σ)

private theorem run_printer_of_alternatives
    {selection : Selection}
    {first : Selector}
    {rest : List Selector}
    (listed : selection.alternatives = first :: rest) :
    sink.printer.run selection
      = (do
          sink.printer.run first
          rest.forM fun alternative => do
            sink.offer .comma
            sink.printer.run alternative) := by
  rw [Traversal.run_eq]
  simp only [Sink.printer]
  have attached : selection.alternatives.attach.map Subtype.val = first :: rest := by
    rw [List.attach_map_subtype_val, listed]
  split
  · rename_i none
    rw [none] at attached
    cases attached
  · rename_i firstAttached member restAttached some
    rw [some, List.map_cons] at attached
    cases attached
    simp only [List.forM_eq_forM, List.forM_map]

theorem Sink.run_printer
    {shape : Shape}
    (node : Node shape) :
    sink.printer.run node = node.tokens.forM sink.offer := by
  induction node with
  | literal text => rw [Traversal.run_eq]; simp [Sink.printer, Node.tokens]
  | star => rw [Traversal.run_eq]; simp [Sink.printer, Node.tokens]
  | ofWord _ inductionHypothesis
  | ofWildcard _ inductionHypothesis
  | ofName _ inductionHypothesis
  | ofSubSelection _ inductionHypothesis
  | ofField _ inductionHypothesis
  | ofChain _ inductionHypothesis =>
      rw [Traversal.run_eq]
      exact inductionHypothesis
  | scope name body nameHypothesis bodyHypothesis =>
      rw [Traversal.run_eq]
      simp only [Sink.printer, nameHypothesis, bodyHypothesis]
      simp [Node.tokens]
  | slash init last initHypothesis lastHypothesis =>
      rw [Traversal.run_eq]
      simp only [Sink.printer, initHypothesis, lastHypothesis]
      simp [Node.tokens]
  | only alternative inductionHypothesis =>
      rw [run_printer_of_alternatives sink rfl, inductionHypothesis]
      simp [Node.tokens]
  | cons alternative others alternativeHypothesis othersHypothesis =>
      -- The printer never visits the rest as a node: it goes through one flat list.
      obtain ⟨next, later, othersListed⟩ :=
        List.exists_cons_of_ne_nil others.alternatives_ne_nil
      rw [run_printer_of_alternatives sink othersListed] at othersHypothesis
      have listed : (Node.cons alternative others).alternatives = alternative :: next :: later := by
        rw [Node.alternatives, othersListed]
      rw [run_printer_of_alternatives sink listed, alternativeHypothesis]
      simp only [List.forM_eq_forM] at othersHypothesis
      simp [Node.tokens, ← othersHypothesis]

end Printer

/-! ## The text of a node -/

theorem Sink.forM_offer_buffer
    (tokens : List Token)
    (written : String) :
    (tokens.forM Sink.buffer.offer ⟨written, true⟩).2 = ⟨written ++ Token.textOf tokens, true⟩ := by
  induction tokens generalizing written with
  | nil =>
      rw [Token.textOf_nil, String.append_empty]
      rfl
  | cons token tokens inductionHypothesis =>
      have offered := inductionHypothesis (written ++ token.spelling)
      rw [String.append_assoc, ← Token.textOf_cons] at offered
      exact offered

theorem Node.render_eq_textOf
    {shape : Shape}
    (node : Node shape) :
    node.render = Token.textOf node.tokens := by
  have offered := Sink.forM_offer_buffer node.tokens ""
  rw [String.empty_append] at offered
  rw [Node.render, Node.print, Sink.run_printer]
  exact congrArg Printing.state offered

/-! ## Trees with valid words -/

theorem Node.wordsValid_iff_tokens
    {shape : Shape}
    (node : Node shape) :
    node.WordsValid ↔ ∀ token ∈ node.tokens, token.Valid := by
  induction node with
  | scope name body nameHypothesis bodyHypothesis =>
      rw [Node.WordsValid, nameHypothesis, bodyHypothesis]
      simp [Node.tokens, Token.Valid, or_imp, forall_and]
  | slash init last initHypothesis lastHypothesis =>
      rw [Node.WordsValid, initHypothesis, lastHypothesis]
      simp [Node.tokens, Token.Valid, or_imp, forall_and]
  | cons alternative others alternativeHypothesis othersHypothesis =>
      rw [Node.WordsValid, alternativeHypothesis, othersHypothesis]
      simp [Node.tokens, Token.Valid, or_imp, forall_and]
  | literal text => simp [Node.WordsValid, Node.tokens, Token.Valid]
  | star => simp [Node.WordsValid, Node.tokens, Token.Valid]
  | _ => simpa only [Node.WordsValid, Node.tokens]

private theorem isChain_append_cons
    {front back : List Token}
    {separator : Token}
    (frontApart : front.IsChain Token.Apart)
    (backApart : back.IsChain Token.Apart)
    (noWord : separator.isWord = false) :
    (front ++ separator :: back).IsChain Token.Apart := by
  refine List.isChain_append.2 ⟨frontApart, List.isChain_cons.2 ⟨?_, backApart⟩, ?_⟩
  · intro next _ word
    rw [noWord] at word
    cases word
  · intro last _ next head _
    rw [← Option.some.inj head]
    exact noWord

/-- No tree is written with two words in a row. -/
theorem Node.isChain_tokens
    {shape : Shape}
    (node : Node shape) :
    node.tokens.IsChain Token.Apart := by
  induction node with
  | literal text => exact List.isChain_singleton _
  | star => exact List.isChain_singleton _
  | scope name body nameHypothesis bodyHypothesis =>
      rw [Node.tokens_scope]
      exact isChain_append_cons nameHypothesis
        (isChain_append_cons bodyHypothesis List.isChain_nil rfl) rfl
  | slash init last initHypothesis lastHypothesis =>
      exact isChain_append_cons initHypothesis lastHypothesis rfl
  | cons alternative others alternativeHypothesis othersHypothesis =>
      exact isChain_append_cons alternativeHypothesis othersHypothesis rfl
  | _ => assumption

theorem Node.canonical_tokens
    {shape : Shape}
    {node : Node shape}
    (valid : node.WordsValid) :
    Token.Canonical node.tokens :=
  ⟨node.wordsValid_iff_tokens.1 valid, node.isChain_tokens⟩

end FieldSelection
