import FieldSelection.Node.Edit
import FieldSelection.Proofs.Node.Visiting

/-!
Contract: a folder is handed the nodes of a tree in the order in which a visitor visits them.

Owns:
- `Adds`, what a program adds to a record that is kept in its state;
- the calls that rebuilding a node makes, as those for its children one after another;
- `Folder.tracing`, which notes the shape of each node that it is handed, and
  `Node.foldTrace`, its notes;
- the notes of this folder, and of edits that arrange lists only, in the order of visits.

Does not own: the trees that the folders make.

What is done with a list after it was rebuilt adds no call: its alternatives were folded
before, whether they are kept or not.
-/

set_option autoImplicit false

namespace FieldSelection

/-! ## Programs that add to a record -/

/-- Whatever state a program starts in, it adds the items at the end of the record. -/
def Adds
    {σ Item Result : Type}
    (seen : σ → List Item)
    (program : StateM σ Result)
    (items : List Item) : Prop :=
  ∀ state, seen (program.run state).2 = seen state ++ items

namespace Adds

variable {σ Item Result Next : Type} {seen : σ → List Item} {items : List Item}

theorem pure (result : Result) : Adds seen (Pure.pure result : StateM σ Result) [] :=
  fun state => (List.append_nil (seen state)).symm

theorem bind
    {program : StateM σ Result}
    {continuation : Result → StateM σ Next}
    {laterItems : List Item}
    (first : Adds seen program items)
    (later : ∀ result, Adds seen (continuation result) laterItems) :
    Adds seen (program >>= continuation) (items ++ laterItems) := by
  intro state
  have added := later (program.run state).1 (program.run state).2
  rw [first state, List.append_assoc] at added
  exact added

theorem map
    {program : StateM σ Result}
    (function : Result → Next)
    (first : Adds seen program items) :
    Adds seen (function <$> program) items :=
  first

theorem mapM
    {Entry : Type}
    {program : Entry → StateM σ Result}
    {itemsOf : Entry → List Item}
    {entries : List Entry}
    (each : ∀ entry ∈ entries, Adds seen (program entry) (itemsOf entry)) :
    Adds seen (entries.mapM program) (entries.flatMap itemsOf) := by
  induction entries with
  | nil => exact Adds.pure []
  | cons entry entries inductionHypothesis =>
      have othersEach := inductionHypothesis fun other member => each other (by simp [member])
      rw [List.mapM_cons, List.flatMap_cons]
      refine (each entry (by simp)).bind ?_
      intro result
      exact othersEach.map _

end Adds

/-! ## Rebuilding -/

section Folders

variable {σ : Type} {seen : σ → List Shape}

/-- If folding a node adds the shapes of the nodes from there on, rebuilding a node adds the shapes of
the nodes below it. -/
theorem rebuild_adds
    {shape : Shape}
    {node : Node shape}
    {fold : Descent (fun shape => StateM σ (Node shape)) node}
    (below : ∀ {child : Shape} (part : Node child) (smaller : sizeOf part < sizeOf node),
      Adds seen (fold part smaller) (part.visited.map AnyNode.shape)) :
    Adds seen (rebuild shape node fold) (node.visited.tail.map AnyNode.shape) := by
  rw [node.tail_visited_eq_flatMap_children, List.map_flatMap]
  match shape, node with
  | .selection, selection =>
      rw [Node.children, List.flatMap_map, ← List.attach_map_subtype_val selection.alternatives,
        List.flatMap_map]
      apply Adds.map
      apply Adds.mapM
      intro alternative _
      exact below alternative.val (Node.sizeOf_lt_of_mem_alternatives alternative.property)
  | .selector, .ofField field
  | .selector, .ofChain chain
  | .field, .ofName name
  | .field, .ofSubSelection subSelection
  | .name, .ofWord word
  | .name, .ofWildcard wildcard =>
      rw [Node.children, List.flatMap_singleton]
      exact (below _ _).map _
  | .chain, .slash init last =>
      rw [Node.children, List.flatMap_cons, List.flatMap_singleton]
      refine (below init Node.init_lt).bind ?_
      intro newInit
      exact (below last Node.last_lt).map _
  | .subSelection, .scope name body =>
      rw [Node.children, List.flatMap_cons, List.flatMap_singleton]
      refine (below name Node.scopeName_lt).bind ?_
      intro newName
      exact (below body Node.scopeBody_lt).map _
  | .word, word => exact Adds.pure word
  | .wildcard, wildcard => exact Adds.pure wildcard

/-- If the rule of a folder adds the shape of a node and then those of the nodes below it, a run of the
folder adds the shapes of all nodes in the order of the visits. -/
theorem Folder.run_adds
    {folder : Folder (StateM σ)}
    (rule : ∀ {shape : Shape} (node : Node shape)
      (fold : Descent (fun shape => StateM σ (Node shape)) node),
      (∀ {child : Shape} (part : Node child) (smaller : sizeOf part < sizeOf node),
        Adds seen (fold part smaller) (part.visited.map AnyNode.shape)) →
      Adds seen (folder shape node fold)
        ([shape] ++ node.visited.tail.map AnyNode.shape))
    {shape : Shape}
    (node : Node shape) :
    Adds seen (folder.run node) (node.visited.map AnyNode.shape) := by
  rw [node.visited_eq_cons_tail, List.map_cons, Traversal.run_eq]
  apply rule
  intro child part smaller
  exact run_adds rule part
termination_by sizeOf node

end Folders

/-! ## Folders that note the shapes -/

section Tracing

variable {σ : Type}

/-- Notes a shape, beside a state of another kind. -/
def noteShape (shape : Shape) : StateM (Array Shape × σ) Unit :=
  modify fun (shapes, state) => (shapes.push shape, state)

/-- Notes the shape of each node that it is handed, rebuilds the node, and finishes each list that
was rebuilt in a way that may depend on all that came before. -/
def Folder.tracing (finish : Selection → StateM σ Selection) : Folder (StateM (Array Shape × σ))
  | .selection, selection, fold => do
    noteShape .selection
    let folded ← rebuild .selection selection fold
    modifyGet fun (shapes, state) =>
      let (finished, state) := finish folded state
      (finished, shapes, state)
  | shape, node, fold => do
    noteShape shape
    rebuild shape node fold

/-- The shapes of the nodes that the folder is handed, in the order of its calls. -/
def Node.foldTrace
    {shape : Shape}
    (node : Node shape)
    (finish : Selection → StateM σ Selection)
    (state : σ) :
    List Shape :=
  ((Folder.tracing finish).run node (#[], state)).2.1.toList

theorem noteShape_adds
    (shape : Shape) :
    Adds (fun state => state.1.toList) (noteShape (σ := σ) shape) [shape] :=
  fun _ => Array.toList_push

theorem Folder.run_tracing_adds
    (finish : Selection → StateM σ Selection)
    {shape : Shape}
    (node : Node shape) :
    Adds (fun state => state.1.toList) ((tracing finish).run node)
      (node.visited.map AnyNode.shape) := by
  apply run_adds
  intro shape node fold below
  cases shape with
  | selection =>
      have finished : ∀ folded, Adds (fun state : Array Shape × σ => state.1.toList)
          (modifyGet fun (shapes, state) =>
            let (finished, state) := finish folded state
            (finished, shapes, state)) [] :=
        fun _ _ => (List.append_nil _).symm
      refine (noteShape_adds Shape.selection).bind ?_
      intro _
      rw [← List.append_nil (List.map _ _)]
      exact (rebuild_adds below).bind finished
  | _ =>
      refine (noteShape_adds _).bind ?_
      intro _
      exact rebuild_adds below

end Tracing

/-- Rules that concern lists alone. -/
def EditRules.ofLists (reverse first : Bool) : EditRules :=
  { reverseAlternatives := reverse, firstAlternative := first }

theorem EditRules.replaceWord_adds
    (rules : EditRules)
    (word : Word) :
    Adds (fun state : EditState => state.trace.toList) (rules.replaceWord word) [] := by
  intro state
  rw [List.append_nil]
  unfold replaceWord
  cases Word.ofText (rules.respell word.text) <;> rfl

theorem EditRules.rule_ofLists_adds
    (reverse first : Bool)
    {shape : Shape}
    {node : Node shape}
    {fold : Descent (fun shape => StateM EditState (Node shape)) node}
    (below : ∀ {child : Shape} (part : Node child) (smaller : sizeOf part < sizeOf node),
      Adds (fun state : EditState => state.trace.toList) (fold part smaller)
        (part.visited.map AnyNode.shape)) :
    Adds (fun state : EditState => state.trace.toList) ((ofLists reverse first).rule shape node fold)
      (node.visited.tail.map AnyNode.shape) := by
  match shape, node with
  | .selection, selection => exact (rebuild_adds below).map _
  | .chain, chain =>
      rw [← List.append_nil (List.map _ _)]
      refine (rebuild_adds below).bind ?_
      intro folded
      exact Adds.pure folded
  | .word, .literal text => exact (ofLists reverse first).replaceWord_adds (.literal text)
  | .selector, .ofField _
  | .selector, .ofChain (.slash _ _)
  | .field, .ofName _
  | .field, .ofSubSelection (.scope _ _)
  | .subSelection, .scope _ _
  | .name, .ofWord _
  | .name, .ofWildcard _
  | .wildcard, _ => exact rebuild_adds below

theorem EditRules.run_folder_ofLists_adds
    (reverse first : Bool)
    {shape : Shape}
    (node : Node shape) :
    Adds (fun state : EditState => state.trace.toList) ((ofLists reverse first).folder.run node)
      (node.visited.map AnyNode.shape) := by
  apply Folder.run_adds
  intro shape node fold below
  have noted : Adds (fun state : EditState => state.trace.toList)
      (modify fun state => { state with trace := state.trace.push shape }) [shape] :=
    fun _ => Array.toList_push
  refine noted.bind ?_
  intro _
  exact rule_ofLists_adds reverse first below

/-- A folder that notes the shape of each node and rebuilds the node is called for the nodes that a
visitor comes upon, in the same order and each as often, whatever is made of the lists after they
were rebuilt. So is an edit that puts lists in reverse order, or cuts them to their first entries. -/
theorem Node.foldTrace_eq_visits
    {shape : Shape}
    (node : Node shape) :
    (∀ {σ : Type} (finish : Selection → StateM σ Selection) (state : σ),
        node.foldTrace finish state = node.nodes.map AnyNode.shape)
      ∧ ∀ reverse first : Bool,
          (node.edit (EditRules.ofLists reverse first)).2.trace.toList
            = node.nodes.map AnyNode.shape := by
  rw [nodes_eq_visited]
  constructor
  · intro σ finish state
    exact Folder.run_tracing_adds finish node (#[], state)
  · intro reverse first
    exact EditRules.run_folder_ofLists_adds reverse first node {}

end FieldSelection
