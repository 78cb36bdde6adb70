/-!
Contract: the syntax tree of a field selection.

Owns:
- `Shape`, the eight kinds of node, and `Node`, the nodes of each kind;
- the list view of a selection (`alternatives`, `Selection.ofList`);
- the wrapping of a node in the shapes that may hold it.

Does not own: the meaning of a tree, or its text.

The nodes form one family indexed by shape, with one constructor for each way
to build a node. A tree with a node in the wrong place has no type, and a fact
about every node of every shape is one induction.

A selection is a list of alternatives with at least one member, written
`a,b/c,d(e)`. A selector is an alternative: a single field, or a chain of steps.
A chain `a/b/c` is the chain `a/b` followed by the last step `c`. A field is a
bare name, or a name with a sub-selection `d(e)`.
-/

set_option autoImplicit false

namespace FieldSelection

/-- The kinds of node. -/
inductive Shape where
  | selection
  | selector
  | chain
  | field
  | subSelection
  | name
  | word
  | wildcard
deriving DecidableEq, Repr, Inhabited

/-- The nodes of each shape. The text of a word is not checked here (`Word.ofText` does that). -/
inductive Node : Shape → Type where
  /-- A word, which stands for the name that it spells. -/
  | literal (text : String) : Node .word
  /-- The wildcard `*`, which stands for any one name. -/
  | star : Node .wildcard
  | ofWord (word : Node .word) : Node .name
  | ofWildcard (wildcard : Node .wildcard) : Node .name
  | ofName (name : Node .name) : Node .field
  | ofSubSelection (subSelection : Node .subSelection) : Node .field
  /-- A name with a body that applies below it: `name(body)`. -/
  | scope (name : Node .name) (body : Node .selection) : Node .subSelection
  | ofField (field : Node .field) : Node .selector
  | ofChain (chain : Node .chain) : Node .selector
  /-- All steps but the last, and the last step: `init/last`. -/
  | slash (init : Node .selector) (last : Node .field) : Node .chain
  /-- A selection with one alternative. -/
  | only (alternative : Node .selector) : Node .selection
  /-- An alternative in front of others: `alternative,rest`. -/
  | cons (alternative : Node .selector) (rest : Node .selection) : Node .selection
deriving DecidableEq

abbrev Selection := Node .selection
abbrev Selector := Node .selector
abbrev Chain := Node .chain
abbrev Field := Node .field
abbrev SubSelection := Node .subSelection
abbrev Name := Node .name
abbrev Word := Node .word
abbrev Wildcard := Node .wildcard

namespace Node

/-- The text of a word. -/
def text : Word → String
  | .literal text => text

/-- The alternatives of a selection in source order; a node of another shape has none. -/
def alternatives : {shape : Shape} → Node shape → List Selector
  | _, .only alternative => [alternative]
  | _, .cons alternative rest => alternative :: rest.alternatives
  | _, _ => []

/-- The selection after its first alternative, if there are others. -/
def next? : Selection → Option Selection
  | .only _ => none
  | .cons _ rest => some rest

theorem alternatives_ne_nil
    (selection : Selection) :
    selection.alternatives ≠ [] := by
  cases selection <;> simp [alternatives]

/-- An alternative is a smaller tree than the selection that lists it. -/
theorem sizeOf_lt_of_mem_alternatives
    {alternative : Selector}
    {shape : Shape}
    {node : Node shape}
    (member : alternative ∈ node.alternatives) :
    sizeOf alternative < sizeOf node := by
  induction node with
  | only first =>
      obtain rfl : alternative = first := by simpa [alternatives] using member
      rw [only.sizeOf_spec]
      omega
  | cons first rest _ inductionHypothesis =>
      rw [cons.sizeOf_spec]
      rcases List.mem_cons.1 member with rfl | member
      · omega
      · have smaller := inductionHypothesis member
        omega
  | _ => simp [alternatives] at member

end Node

/-- Puts alternatives, given latest first, in front of a selection. -/
def Selection.prepend (read : List Selector) (selection : Selection) : Selection :=
  read.foldl (fun rest alternative => .cons alternative rest) selection

/-- The selection with the given alternatives. -/
def Selection.ofList (first : Selector) (rest : List Selector) : Selection :=
  match rest.reverse with
  | [] => .only first
  | final :: read => .cons first (Selection.prepend read (.only final))

theorem Selection.alternatives_prepend
    (read : List Selector)
    (selection : Selection) :
    (Selection.prepend read selection).alternatives = read.reverse ++ selection.alternatives := by
  induction read generalizing selection with
  | nil => rfl
  | cons alternative older inductionHypothesis =>
      simpa [Selection.prepend, Node.alternatives] using
        inductionHypothesis (.cons alternative selection)

theorem Selection.alternatives_ofList
    (first : Selector)
    (rest : List Selector) :
    (Selection.ofList first rest).alternatives = first :: rest := by
  unfold Selection.ofList
  split
  · rename_i noRest
    rw [List.reverse_eq_nil_iff.1 noRest]
    rfl
  · rename_i final read reversed
    rw [Node.alternatives, Selection.alternatives_prepend, List.reverse_eq_cons_iff.1 reversed]
    rfl

/-- The selection of other alternatives in place of its own; it stays as it is if there are none. -/
def Node.withAlternatives (selection : Selection) : List Selector → Selection
  | [] => selection
  | first :: rest => Selection.ofList first rest

theorem Node.alternatives_withAlternatives
    (selection : Selection)
    {alternatives : List Selector}
    (nonempty : alternatives ≠ []) :
    (selection.withAlternatives alternatives).alternatives = alternatives := by
  cases alternatives with
  | nil => exact absurd rfl nonempty
  | cons first rest => exact Selection.alternatives_ofList first rest

/-- A selection is determined by its alternatives. -/
theorem Node.alternatives_injective :
    {left right : Selection} → left.alternatives = right.alternatives → left = right
  | .only _, .only _, same => by simpa [alternatives] using same
  | .only _, .cons _ rest, same => by simp [alternatives, rest.alternatives_ne_nil] at same
  | .cons _ rest, .only _, same => by simp [alternatives, rest.alternatives_ne_nil] at same
  | .cons _ _, .cons _ _, same => by
      simp only [alternatives, List.cons.injEq] at same
      rw [same.1, alternatives_injective same.2]

theorem Selection.ofList_cons
    (first second : Selector)
    (rest : List Selector) :
    Selection.ofList first (second :: rest) = .cons first (Selection.ofList second rest) := by
  apply Node.alternatives_injective
  rw [Selection.alternatives_ofList, Node.alternatives, Selection.alternatives_ofList]

/-- A node together with its shape. -/
structure AnyNode where
  shape : Shape
  node : Node shape
deriving DecidableEq

namespace AnyNode

/-- The node as a selection; no node of another shape is wrapped to become one. -/
def selection? : AnyNode → Option Selection
  | ⟨.selection, selection⟩ => some selection
  | _ => none

/-- The node wrapped as a name, if names are built of nodes of its shape. -/
def name? : AnyNode → Option Name
  | ⟨.word, word⟩ => some (.ofWord word)
  | ⟨.wildcard, wildcard⟩ => some (.ofWildcard wildcard)
  | ⟨.name, name⟩ => some name
  | _ => none

/-- The node wrapped as a field, if fields are built of nodes of its shape. -/
def field? : AnyNode → Option Field
  | ⟨.field, field⟩ => some field
  | ⟨.subSelection, subSelection⟩ => some (.ofSubSelection subSelection)
  | node => node.name?.map .ofName

/-- The node wrapped as a selector; only a selection is none. -/
def selector? : AnyNode → Option Selector
  | ⟨.selector, selector⟩ => some selector
  | ⟨.chain, chain⟩ => some (.ofChain chain)
  | node => node.field?.map .ofField

/-- The node as a selection of its own: a selection as it is, else the one alternative that the
node is wrapped as. -/
def asSelection : AnyNode → Selection
  | ⟨.selection, selection⟩ => selection
  | ⟨.selector, selector⟩ => .only selector
  | ⟨.chain, chain⟩ => .only (.ofChain chain)
  | ⟨.field, field⟩ => .only (.ofField field)
  | ⟨.subSelection, subSelection⟩ => .only (.ofField (.ofSubSelection subSelection))
  | ⟨.name, name⟩ => .only (.ofField (.ofName name))
  | ⟨.word, word⟩ => .only (.ofField (.ofName (.ofWord word)))
  | ⟨.wildcard, wildcard⟩ => .only (.ofField (.ofName (.ofWildcard wildcard)))

end AnyNode

end FieldSelection
