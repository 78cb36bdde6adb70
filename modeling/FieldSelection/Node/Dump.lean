import FieldSelection.Node.Traversal
import FieldSelection.Text.Outline
import FieldSelection.Text.Quoted

/-!
Contract: trees spelled out node by node, for the reader who inspects them.

Owns:
- `Node.outline`: each node under the title of its kind, lists of alternatives in
  square brackets, and words in quotes.

Does not own: the layout of an outline (`FieldSelection.Text.Outline`).
-/

set_option autoImplicit false

namespace FieldSelection

/-- One item in round brackets after a title. -/
def Outline.tagged (title : String) (item : Outline) : Outline := .group title .round [item]

/-- Outlines a node from the outlines of its children. -/
def outliner : Traversal fun _ => Outline
  | .selection, selection, outline =>
    .tagged "Fields" <| .group "" .square <|
      selection.alternatives.attach.map fun ⟨alternative, member⟩ =>
        outline alternative (Node.sizeOf_lt_of_mem_alternatives member)
  | .selector, .ofField field, outline => .tagged "Field" (outline field Node.field_lt)
  | .selector, .ofChain chain, outline => .tagged "Path" (outline chain Node.chain_lt)
  | .chain, .slash init last, outline =>
    .group "Path" .curly
      [.labelled "prefix" (outline init Node.init_lt),
        .labelled "suffix" (outline last Node.last_lt)]
  | .field, .ofName name, outline => .tagged "Name" (outline name Node.bareName_lt)
  | .field, .ofSubSelection subSelection, outline =>
    .tagged "SubSelection" (outline subSelection Node.subSelection_lt)
  | .subSelection, .scope name body, outline =>
    .group "SubSelection" .curly
      [.labelled "name" (outline name Node.scopeName_lt),
        .labelled "body" (outline body Node.scopeBody_lt)]
  | .name, .ofWord word, outline => .tagged "Word" (outline word Node.word_lt)
  | .name, .ofWildcard wildcard, outline => .tagged "Wildcard" (outline wildcard Node.wildcard_lt)
  | .word, .literal text, _ => .tagged "Word" (.atom (quote text))
  | .wildcard, .star, _ => .atom "Wildcard"

def Node.outline {shape : Shape} (node : Node shape) : Outline := outliner.run node

end FieldSelection
