import FieldSelection.Node

/-!
Contract: the bytes by which trees are hashed.

Owns:
- `DigestUnit` and `Node.digest`, the units of a tree one after another;
- `NumberFormat`, how a machine writes numbers, and `Node.digestBytes`, the bytes of all units;
- `Node.hashedLike`, whether two trees come to the same bytes.

Does not own: any hash function; two trees hash alike if their bytes are equal.

A list of alternatives adds nothing of its own, neither its length nor an end.
Equal trees have equal digests. The converse fails where a body ends: `a(b,c)`
and `a(b),c` differ, and have the same digest.

A hash function gets bytes and does not see where a unit begins or ends. So trees of
different digests may still come to the same bytes: the number of an alternative may
pass for the first bytes of a word, and the other way round.
-/

set_option autoImplicit false

namespace FieldSelection

/-- One unit that is fed to a hash function. -/
inductive DigestUnit where
  /-- Which of its two alternatives a selector, field or name is. -/
  | variant (number : Nat)
  /-- The text of a word. -/
  | text (content : String)
deriving DecidableEq, Repr

def Node.digest : {shape : Shape} → Node shape → List DigestUnit
  | _, .literal text => [.text text]
  | _, .star => []
  | _, .ofWord word => .variant 0 :: word.digest
  | _, .ofWildcard wildcard => .variant 1 :: wildcard.digest
  | _, .ofName name => .variant 0 :: name.digest
  | _, .ofSubSelection subSelection => .variant 1 :: subSelection.digest
  | _, .scope name body => name.digest ++ body.digest
  | _, .ofField field => .variant 0 :: field.digest
  | _, .ofChain chain => .variant 1 :: chain.digest
  | _, .slash init last => init.digest ++ last.digest
  | _, .only alternative => alternative.digest
  | _, .cons alternative rest => alternative.digest ++ rest.digest

/-! ## Bytes -/

/-- How many bytes a number takes on a machine. -/
inductive NumberWidth where
  | two
  | four
  | eight
deriving DecidableEq, Repr

def NumberWidth.size : NumberWidth → Nat
  | .two => 2
  | .four => 4
  | .eight => 8

/-- How a machine writes numbers. -/
structure NumberFormat where
  width : NumberWidth := .eight
  highestFirst : Bool := false
deriving DecidableEq, Repr

/-- The bytes of a number, as many for each number. -/
def NumberFormat.bytes (format : NumberFormat) (number : Nat) : List UInt8 :=
  let lowestFirst :=
    (List.range format.width.size).map fun place => UInt8.ofNat (number >>> (8 * place))
  if format.highestFirst then lowestFirst.reverse else lowestFirst

/-- The byte behind the text of a word. No text holds it. -/
def DigestUnit.textEnd : UInt8 := 0xff

def DigestUnit.bytes (format : NumberFormat) : DigestUnit → List UInt8
  | .variant number => format.bytes number
  | .text content => content.toList.flatMap String.utf8EncodeChar ++ [textEnd]

namespace Node

/-- All that is fed to a hash function for a node. -/
def digestBytes {shape : Shape} (format : NumberFormat) (node : Node shape) : List UInt8 :=
  node.digest.flatMap (DigestUnit.bytes format)

/-- Whether two nodes are hashed alike where numbers take eight bytes, the lowest first. -/
def hashedLike {left right : Shape} (node : Node left) (other : Node right) : Bool :=
  node.digestBytes {} == other.digestBytes {}

end Node

end FieldSelection
