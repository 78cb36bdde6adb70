import FieldSelection.Proofs.Node.Printing
import FieldSelection.Proofs.Verdict

/-!
Contract: reading and printing undo one another.

Owns:
- the texts that are read as a given tree;
- the round trip from a tree of any shape, and the round trip from a text.

Does not own: the verdict on texts that are refused.

Main statement: a text is read as a tree exactly if it is the text of the tree and
the words of the tree are valid.
-/

set_option autoImplicit false

namespace FieldSelection

/-- A text is read as a tree exactly if it is the text of a tree with valid words. -/
theorem parse_eq_ok_iff_render
    {text : String}
    {selection : Selection} :
    parse text = .ok selection ↔ selection.WordsValid ∧ selection.render = text := by
  rw [parse_eq_ok_iff_tokens, Token.ofText_eq_iff, Node.render_eq_textOf]
  constructor
  · intro lexed
    exact ⟨selection.wordsValid_iff_tokens.2 lexed.1.valid, lexed.2⟩
  · intro written
    exact ⟨Node.canonical_tokens written.1, written.2⟩

theorem AnyNode.exists_selector?_eq_some
    (node : AnyNode)
    (single : node.shape ≠ .selection) :
    ∃ alternative, node.selector? = some alternative := by
  obtain ⟨shape, node⟩ := node
  cases shape with
  | selection => contradiction
  | _ => exact ⟨_, rfl⟩

theorem AnyNode.tokens_of_selector?_eq_some
    {node : AnyNode}
    {alternative : Selector}
    (wrapped : node.selector? = some alternative) :
    alternative.tokens = node.node.tokens := by
  obtain ⟨shape, node⟩ := node
  cases shape with
  | selection => cases wrapped
  | _ => cases wrapped; rfl

/-- The text of a tree with valid words is read as that tree. The text of a node of another shape
is read as the selection of that one node, wrapped. -/
theorem parse_render :
    (∀ selection : Selection, selection.WordsValid → parse selection.render = .ok selection)
      ∧ ∀ node : AnyNode, node.shape ≠ .selection → node.node.WordsValid →
          ∃ alternative, node.selector? = some alternative
            ∧ parse node.node.render = .ok (.only alternative) := by
  constructor
  · intro selection valid
    exact parse_eq_ok_iff_render.2 ⟨valid, rfl⟩
  · intro node single valid
    obtain ⟨alternative, wrapped⟩ := node.exists_selector?_eq_some single
    have tokens := AnyNode.tokens_of_selector?_eq_some wrapped
    refine ⟨alternative, wrapped, parse_eq_ok_iff_tokens.2 ?_⟩
    rw [Node.render_eq_textOf, Token.ofText_textOf (Node.canonical_tokens valid)]
    exact tokens.symm

theorem parse_render_scoped_and_chained :
    (∃ alternative,
        AnyNode.selector? ⟨.subSelection, .scope (.ofWildcard .star)
            (.only (.ofField (.ofName (.ofWord (.literal "é b")))))⟩ = some alternative
          ∧ parse "*(é b)" = .ok (.only alternative))
      ∧ parse "a,b/*" = .ok (.cons (.ofField (.ofName (.ofWord (.literal "a"))))
          (.only (.ofChain (.slash (.ofField (.ofName (.ofWord (.literal "b"))))
            (.ofName (.ofWildcard .star)))))) := by
  constructor
  · have rendered : (Node.scope (.ofWildcard .star)
        (.only (.ofField (.ofName (.ofWord (.literal "é b")))))).render = "*(é b)" := by
      rw [Node.render_eq_textOf]
      decide
    rw [← rendered]
    exact parse_render.2 ⟨.subSelection, _⟩ (by decide) (by simp only [Node.WordsValid]; decide)
  · have rendered : (Node.cons (.ofField (.ofName (.ofWord (.literal "a"))))
        (.only (.ofChain (.slash (.ofField (.ofName (.ofWord (.literal "b"))))
          (.ofName (.ofWildcard .star)))))).render = "a,b/*" := by
      rw [Node.render_eq_textOf]
      decide
    rw [← rendered]
    exact parse_render.1 _ (by simp only [Node.WordsValid]; decide)

/-- A text that is read is, byte for byte, the text of the tree that it is read as, and it is the
only text that is read as this tree. Every word of the tree could have been made by the check. -/
theorem render_of_parse_eq_ok
    {text : String}
    {selection : Selection}
    (parsed : parse text = .ok selection) :
    selection.render = text
      ∧ selection.WordsValid
      ∧ (∀ word, .word word ∈ selection.tokens → Word.ofText word = .ok (.literal word))
      ∧ ∀ other, parse other = .ok selection → other = text := by
  obtain ⟨valid, written⟩ := parse_eq_ok_iff_render.1 parsed
  refine ⟨written, valid, ?_, ?_⟩
  · intro word member
    have wordValid : ValidWord word := selection.wordsValid_iff_tokens.1 valid _ member
    exact Word.ofText_eq_ok_iff.2 ⟨wordValid, rfl⟩
  · intro other otherParsed
    rw [← written]
    exact (parse_eq_ok_iff_render.1 otherParsed).2.symm

theorem render_of_parse_keeps_spaces :
    (Node.only (.ofField (.ofSubSelection (.scope (.ofWord (.literal " é "))
        (.only (.ofField (.ofName (.ofWildcard .star)))))))).render = " é (*)"
      ∧ Word.ofText " é " = .ok (.literal " é ") := by
  have parsed : parse " é (*)" = .ok (.only (.ofField (.ofSubSelection (.scope
      (.ofWord (.literal " é ")) (.only (.ofField (.ofName (.ofWildcard .star)))))))) :=
    parse_eq_ok_iff_tokens.2 (by decide)
  obtain ⟨rendered, -, made, -⟩ := render_of_parse_eq_ok parsed
  exact ⟨rendered, made " é " (by decide)⟩

end FieldSelection
