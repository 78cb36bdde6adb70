import FieldSelection.Node
import FieldSelection.Token

/-!
Contract: the tokens that a tree is written with.

Owns:
- `Node.tokens`, the tokens of a node of any shape in written order.

Does not own: spelling them into a sink (`FieldSelection.Node.Printer`), or
reading them back (`FieldSelection.Parser`).

Alternatives are joined by commas, the steps of a chain by slashes, and a body
stands in parentheses after its name. Wrapping a node in another shape writes
nothing.
-/

set_option autoImplicit false

namespace FieldSelection

def Node.tokens : {shape : Shape} → Node shape → List Token
  | _, .literal text => [.word text]
  | _, .star => [.wildcard]
  | _, .ofWord word => word.tokens
  | _, .ofWildcard wildcard => wildcard.tokens
  | _, .ofName name => name.tokens
  | _, .ofSubSelection subSelection => subSelection.tokens
  | _, .scope name body => name.tokens ++ .openParen :: body.tokens ++ [.closeParen]
  | _, .ofField field => field.tokens
  | _, .ofChain chain => chain.tokens
  | _, .slash init last => init.tokens ++ .slash :: last.tokens
  | _, .only alternative => alternative.tokens
  | _, .cons alternative rest => alternative.tokens ++ .comma :: rest.tokens

/-- A sub-selection is written as its name, and then its body between parentheses. -/
theorem Node.tokens_scope
    (name : Name)
    (body : Selection) :
    (Node.scope name body).tokens = name.tokens ++ .openParen :: (body.tokens ++ [.closeParen]) := by
  simp [Node.tokens]

/-- Every node is written with at least one token. -/
theorem Node.tokens_ne_nil
    {shape : Shape}
    (node : Node shape) :
    node.tokens ≠ [] := by
  induction node <;> simp_all [Node.tokens]

end FieldSelection
