import FieldSelection.Matching

/-!
Contract: the flat patterns of a tree.

Owns:
- `Name.accepts`, a name against one segment;
- `Pattern.accepts`, names against as many segments;
- `Node.patterns`, the patterns of a node of any shape.

Does not own: the recursive decision on a path (`Node.selects`).

A sub-selection has its name alone as a pattern, and its name before each pattern
of its body. A chain has each pattern of its first steps followed by the name of
its last step; the body of the last step adds nothing.
-/

set_option autoImplicit false

namespace FieldSelection

/-- Whether a name stands for a segment. -/
def Name.accepts : Name → String → Bool
  | .ofWord word, segment => word.text == segment
  | .ofWildcard _, _ => true

/-- One name for each segment of a path. -/
abbrev Pattern := List Name

/-- Whether a pattern has as many names as a path has segments, and each name stands for its segment. -/
def Pattern.accepts : Pattern → Path → Bool
  | [], [] => true
  | name :: names, segment :: segments => name.accepts segment && Pattern.accepts names segments
  | _, _ => false

/-- The name that a field begins with. -/
def Field.head : Field → Name
  | .ofName name => name
  | .ofSubSelection (.scope name _) => name

def Node.patterns : {shape : Shape} → Node shape → List Pattern
  | _, .literal text => [[.ofWord (.literal text)]]
  | _, .star => [[.ofWildcard .star]]
  | _, .ofWord word => word.patterns
  | _, .ofWildcard wildcard => wildcard.patterns
  | _, .ofName name => name.patterns
  | _, .ofSubSelection subSelection => subSelection.patterns
  | _, .scope name body => [name] :: body.patterns.map (name :: ·)
  | _, .ofField field => field.patterns
  | _, .ofChain chain => chain.patterns
  | _, .slash init last => init.patterns.map (· ++ [Field.head last])
  | _, .only alternative => alternative.patterns
  | _, .cons alternative rest => alternative.patterns ++ rest.patterns

end FieldSelection
