import FieldSelection.Node

/-!
Contract: traversals of a tree that decide for themselves where to descend.

Owns:
- `Traversal`, a rule for the nodes of every shape that may call the traversal
  back on any smaller node, and `Traversal.run`;
- `Visitor` and its default `walk`, which visits the children in source order;
- `Folder` and its default `rebuild`, which makes the node anew out of its
  folded children;
- the folders that change at most the leaves, and among them `Node.copy` and
  `Node.mapWords`.

Does not own: the visitors and folders that serve one purpose only.

A visitor or folder is written by cases on the shape: the shapes that it cares
about first, and last a case that hands all others to `walk` or `rebuild`. The
alternatives of a selection are visited from the one node that lists them, so a
rule for selections runs once for each list, however long it is. Each descent
comes with the reason why the node below is smaller.
-/

set_option autoImplicit false

namespace FieldSelection

/-! A node is smaller than the node that it is a child of. -/

namespace Node

theorem word_lt {word : Word} : sizeOf word < sizeOf (ofWord word) := by
  rw [ofWord.sizeOf_spec]
  omega

theorem wildcard_lt {wildcard : Wildcard} : sizeOf wildcard < sizeOf (ofWildcard wildcard) := by
  rw [ofWildcard.sizeOf_spec]
  omega

theorem bareName_lt {name : Name} : sizeOf name < sizeOf (ofName name) := by
  rw [ofName.sizeOf_spec]
  omega

theorem subSelection_lt {subSelection : SubSelection} : sizeOf subSelection < sizeOf (ofSubSelection subSelection) := by
  rw [ofSubSelection.sizeOf_spec]
  omega

theorem scopeName_lt {name : Name} {body : Selection} : sizeOf name < sizeOf (scope name body) := by
  rw [scope.sizeOf_spec]
  omega

theorem scopeBody_lt {name : Name} {body : Selection} : sizeOf body < sizeOf (scope name body) := by
  rw [scope.sizeOf_spec]
  omega

theorem field_lt {field : Field} : sizeOf field < sizeOf (ofField field) := by
  rw [ofField.sizeOf_spec]
  omega

theorem chain_lt {chain : Chain} : sizeOf chain < sizeOf (ofChain chain) := by
  rw [ofChain.sizeOf_spec]
  omega

theorem init_lt {init : Selector} {last : Field} : sizeOf init < sizeOf (slash init last) := by
  rw [slash.sizeOf_spec]
  omega

theorem last_lt {init : Selector} {last : Field} : sizeOf last < sizeOf (slash init last) := by
  rw [slash.sizeOf_spec]
  omega

theorem nameOfSubSelection_lt
    {name : Name}
    {body : Selection} :
    sizeOf name < sizeOf (ofSubSelection (scope name body)) :=
  Nat.lt_trans scopeName_lt subSelection_lt

theorem lastOfChain_lt
    {init : Selector}
    {last : Field} :
    sizeOf last < sizeOf (ofChain (slash init last)) :=
  Nat.lt_trans last_lt chain_lt

end Node

/-- The way back into a traversal, open for every node smaller than the one at hand. -/
abbrev Descent (Result : Shape → Type) {shape : Shape} (node : Node shape) : Type :=
  {child : Shape} → (below : Node child) → sizeOf below < sizeOf node → Result child

/-- What to do at a node of any shape. -/
def Traversal (Result : Shape → Type) : Type :=
  (shape : Shape) → (node : Node shape) → Descent Result node → Result shape

/-- Applies the rule of a traversal at a node. It ends because every descent is to a smaller node. -/
def Traversal.run
    {Result : Shape → Type}
    (traversal : Traversal Result)
    {shape : Shape}
    (node : Node shape) :
    Result shape :=
  traversal shape node fun below _ => traversal.run below
termination_by sizeOf node

/-- A traversal at a node is its rule there, with the traversal itself as the way back. -/
theorem Traversal.run_eq
    {Result : Shape → Type}
    (traversal : Traversal Result)
    {shape : Shape}
    (node : Node shape) :
    traversal.run node = traversal shape node fun below _ => traversal.run below := by
  rw [Traversal.run]

/-- A traversal that acts on its way and gives no result. -/
abbrev Visitor (m : Type → Type) : Type := Traversal fun _ => m Unit

/-- A traversal that gives a node of the same shape. -/
abbrev Folder (m : Type → Type) : Type := Traversal fun shape => m (Node shape)

/-- Visits the children of a node in source order. -/
def walk {m : Type → Type} [Monad m] : Visitor m
  | .selection, selection, visit =>
    selection.alternatives.attach.forM fun ⟨alternative, member⟩ =>
      visit alternative (Node.sizeOf_lt_of_mem_alternatives member)
  | .selector, .ofField field, visit => visit field Node.field_lt
  | .selector, .ofChain chain, visit => visit chain Node.chain_lt
  | .chain, .slash init last, visit => do
    visit init Node.init_lt
    visit last Node.last_lt
  | .field, .ofName name, visit => visit name Node.bareName_lt
  | .field, .ofSubSelection subSelection, visit => visit subSelection Node.subSelection_lt
  | .subSelection, .scope name body, visit => do
    visit name Node.scopeName_lt
    visit body Node.scopeBody_lt
  | .name, .ofWord word, visit => visit word Node.word_lt
  | .name, .ofWildcard wildcard, visit => visit wildcard Node.wildcard_lt
  | .word, _, _ => pure ()
  | .wildcard, _, _ => pure ()

/-- Folds the children of a node in source order, and builds the node of the results. -/
def rebuild {m : Type → Type} [Monad m] : Folder m
  | .selection, selection, fold =>
    selection.withAlternatives <$> selection.alternatives.attach.mapM fun ⟨alternative, member⟩ =>
      fold alternative (Node.sizeOf_lt_of_mem_alternatives member)
  | .selector, .ofField field, fold => .ofField <$> fold field Node.field_lt
  | .selector, .ofChain chain, fold => .ofChain <$> fold chain Node.chain_lt
  | .chain, .slash init last, fold => do
    let init ← fold init Node.init_lt
    let last ← fold last Node.last_lt
    pure (.slash init last)
  | .field, .ofName name, fold => .ofName <$> fold name Node.bareName_lt
  | .field, .ofSubSelection subSelection, fold => .ofSubSelection <$> fold subSelection Node.subSelection_lt
  | .subSelection, .scope name body, fold => do
    let name ← fold name Node.scopeName_lt
    let body ← fold body Node.scopeBody_lt
    pure (.scope name body)
  | .name, .ofWord word, fold => .ofWord <$> fold word Node.word_lt
  | .name, .ofWildcard wildcard, fold => .ofWildcard <$> fold wildcard Node.wildcard_lt
  | .word, word, _ => pure word
  | .wildcard, wildcard, _ => pure wildcard

private theorem forM_attach
    {Item : Type}
    {m : Type → Type}
    [Monad m]
    [LawfulMonad m]
    (items : List Item)
    (act : Item → m Unit) :
    (forM items.attach fun item => act item.val) = forM items act := by
  have mapped := List.forM_map (l := items.attach) (g := Subtype.val) (f := act)
  simpa using mapped.symm

/-- Below a selection, a visitor visits the alternatives in order. -/
theorem walk_selection
    {m : Type → Type}
    [Monad m]
    [LawfulMonad m]
    (visitor : Visitor m)
    (selection : Selection) :
    walk .selection selection (fun below _ => visitor.run below)
      = forM selection.alternatives fun alternative => visitor.run alternative := by
  simp [walk, forM_attach]

/-- A selection is rebuilt of its alternatives, folded in order. -/
theorem rebuild_selection
    {m : Type → Type}
    [Monad m]
    [LawfulMonad m]
    (folder : Folder m)
    (selection : Selection) :
    rebuild .selection selection (fun below _ => folder.run below)
      = selection.withAlternatives
          <$> selection.alternatives.mapM fun alternative => folder.run alternative := by
  simp [rebuild]

/-- A copy of a node, made anew from the leaves up. -/
def Node.copy {shape : Shape} (node : Node shape) : Node shape :=
  Id.run (Traversal.run (rebuild (m := Id)) node)

/-- The folder with rules for words and wildcards, which rebuilds all other nodes. -/
def Folder.ofLeaves
    {m : Type → Type}
    [Monad m]
    (onWord : Word → m Word)
    (onWildcard : Wildcard → m Wildcard) :
    Folder m
  | .word, word, _ => onWord word
  | .wildcard, wildcard, _ => onWildcard wildcard
  | shape, node, fold => rebuild shape node fold

/-- The tree with the text of each word replaced. -/
def Node.mapWords {shape : Shape} (respell : String → String) (node : Node shape) : Node shape :=
  Id.run ((Folder.ofLeaves (m := Id) (fun word => .literal (respell word.text)) id).run node)

end FieldSelection
