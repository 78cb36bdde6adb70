import FieldSelection.Node.Children
import FieldSelection.Node.Tokens
import FieldSelection.Node.Trace

/-!
Contract: what visitors that never turn back report, and in which order.

Owns:
- `Node.visited`, the nodes of a tree in the order of the default visits;
- `Recorder.collecting`, the visitor that records something for each node and goes on
  below it, and its agreement with `Node.visited`;
- the visitors with rules for some shapes, as visitors of that kind.

Does not own: visitors that leave parts of a tree out.

A visitor that goes through a list sees the list once, and not the rests of it, while
a recursion on the tree comes upon each rest. So what such a recursion says of the
rest of a list leaves out the first entry, which is the rest itself.
-/

set_option autoImplicit false

namespace FieldSelection

/-! ## The order of visits -/

/-- The nodes of a tree, each before its children and these in source order. -/
def Node.visited : {shape : Shape} → Node shape → List AnyNode
  | _, .literal text => [⟨.word, .literal text⟩]
  | _, .star => [⟨.wildcard, .star⟩]
  | _, .ofWord word => ⟨.name, .ofWord word⟩ :: word.visited
  | _, .ofWildcard wildcard => ⟨.name, .ofWildcard wildcard⟩ :: wildcard.visited
  | _, .ofName name => ⟨.field, .ofName name⟩ :: name.visited
  | _, .ofSubSelection subSelection =>
    ⟨.field, .ofSubSelection subSelection⟩ :: subSelection.visited
  | _, .scope name body => ⟨.subSelection, .scope name body⟩ :: (name.visited ++ body.visited)
  | _, .ofField field => ⟨.selector, .ofField field⟩ :: field.visited
  | _, .ofChain chain => ⟨.selector, .ofChain chain⟩ :: chain.visited
  | _, .slash init last => ⟨.chain, .slash init last⟩ :: (init.visited ++ last.visited)
  | _, .only alternative => ⟨.selection, .only alternative⟩ :: alternative.visited
  | _, .cons alternative rest =>
    ⟨.selection, .cons alternative rest⟩ :: (alternative.visited ++ rest.visited.tail)

/-- A node is visited before all nodes below it. -/
theorem Node.visited_eq_cons_tail
    {shape : Shape}
    (node : Node shape) :
    node.visited = ⟨shape, node⟩ :: node.visited.tail := by
  cases node <;> rfl

/-- Below a selection, the alternatives are visited one after another. -/
theorem Node.tail_visited_eq_flatMap
    (selection : Selection) :
    selection.visited.tail = selection.alternatives.flatMap Node.visited := by
  match selection with
  | .only alternative => simp [visited, alternatives]
  | .cons alternative rest => simp [visited, alternatives, tail_visited_eq_flatMap rest]

/-- Below a node, its children are visited one after another, each before the nodes below it. -/
theorem Node.tail_visited_eq_flatMap_children
    {shape : Shape}
    (node : Node shape) :
    node.visited.tail = node.children.flatMap fun child => child.node.visited := by
  match shape, node with
  | .selection, selection =>
      rw [tail_visited_eq_flatMap, children, List.flatMap_map]
  | .selector, .ofField _
  | .selector, .ofChain _
  | .chain, .slash _ _
  | .field, .ofName _
  | .field, .ofSubSelection _
  | .subSelection, .scope _ _
  | .name, .ofWord _
  | .name, .ofWildcard _
  | .word, .literal _
  | .wildcard, .star => simp [visited, children]

/-! ## Recorders -/

/-- Records some items for each node, and goes on below it. -/
def Recorder.collecting {Item : Type} (items : AnyNode → List Item) : Recorder Item
  | shape, node, visit => do
    forM (items ⟨shape, node⟩) record
    walk shape node visit

section Collecting

variable {Item : Type} (items : AnyNode → List Item)

theorem forM_eq_forM_flatMap
    {Part : Type}
    {parts : List Part}
    {act : Part → StateM (Array Item) Unit}
    {found : Part → List Item}
    (each : ∀ part ∈ parts, act part = forM (found part) record) :
    forM parts act = forM (parts.flatMap found) record := by
  induction parts with
  | nil => rfl
  | cons part parts inductionHypothesis =>
      have othersAct := inductionHypothesis fun other member => each other (by simp [member])
      rw [List.forM_cons, each part (by simp), othersAct, List.flatMap_cons, List.forM_append]

theorem Recorder.run_collecting_eq
    {shape : Shape}
    (node : Node shape) :
    (collecting items).run node
      = (do
          forM (items ⟨shape, node⟩) record
          walk shape node fun below _ => (collecting items).run below) :=
  (collecting items).run_eq node

/-- A visitor that never turns back records what it has to for each node of the tree, in order. -/
theorem Recorder.run_collecting
    {shape : Shape}
    (node : Node shape) :
    (collecting items).run node = forM (node.visited.flatMap items) record := by
  have childrenRun : walk shape node (fun below _ => (collecting items).run below)
      = forM (node.visited.tail.flatMap items) record := by
    rw [walk_eq_forM_children, Node.tail_visited_eq_flatMap_children, List.flatMap_assoc]
    apply forM_eq_forM_flatMap
    intro child member
    have smaller := Node.sizeOf_lt_of_mem_children member
    exact run_collecting child.node
  rw [run_collecting_eq, childrenRun, ← List.forM_append, ← List.flatMap_cons,
    ← node.visited_eq_cons_tail]
termination_by sizeOf node

theorem run_forM_record
    (added : List Item)
    (before : Array Item) :
    (forM added record).run before = ((), before ++ added) := by
  induction added generalizing before with
  | nil =>
      rw [Array.appendList_nil]
      rfl
  | cons item added inductionHypothesis => simp [record, inductionHypothesis]

/-- What a visitor records that comes down to a loop over items are these items. -/
theorem Node.recorded_eq_of_run_eq
    {recorder : Recorder Item}
    {shape : Shape}
    {node : Node shape}
    {recorded : List Item}
    (run : recorder.run node = forM recorded record) :
    node.recorded recorder = recorded := by
  have ran := congrArg (fun result => result.2.toList) (run_forM_record recorded #[])
  rw [Node.recorded, run]
  exact ran.trans (by simp)

theorem Node.recorded_collecting
    {shape : Shape}
    (node : Node shape) :
    node.recorded (Recorder.collecting items) = node.visited.flatMap items :=
  recorded_eq_of_run_eq (Recorder.run_collecting items node)

end Collecting

/-! ## Visitors of that kind -/

theorem Recorder.nodes_eq_collecting :
    Recorder.nodes = Recorder.collecting fun visit => [visit] := by
  rfl

theorem Recorder.visitsTo_eq_collecting
    (target : Shape) :
    Recorder.visitsTo target
      = Recorder.collecting fun visit => [visit].filter (·.shape = target) := by
  funext shape node visit
  by_cases same : shape = target <;> simp [visitsTo, collecting, same]

theorem Recorder.leaves_eq_collecting :
    Recorder.leaves = Recorder.collecting fun
      | ⟨.word, .literal text⟩ => [.word text]
      | ⟨.wildcard, .star⟩ => [.wildcard]
      | _ => [] := by
  funext shape node visit
  cases node <;> rfl

theorem Recorder.words_eq_collecting :
    Recorder.words = Recorder.collecting fun
      | ⟨.word, .literal text⟩ => [text]
      | _ => [] := by
  funext shape node visit
  cases node <;> rfl

theorem Recorder.listLengths_eq_collecting :
    Recorder.listLengths
      = Recorder.collecting fun visit =>
          ([visit].filter (·.shape = .selection)).map (·.node.alternatives.length) := by
  funext shape node visit
  cases node <;> rfl

theorem Node.nodes_eq_visited
    {shape : Shape}
    (node : Node shape) :
    node.nodes = node.visited := by
  rw [nodes, Recorder.nodes_eq_collecting, recorded_collecting, List.flatMap_singleton']

theorem Node.visitsTo_eq_filter
    {shape : Shape}
    (node : Node shape)
    (target : Shape) :
    node.visitsTo target = node.visited.filter (·.shape = target) := by
  rw [visitsTo, Recorder.visitsTo_eq_collecting, recorded_collecting, ← List.filter_flatMap,
    List.flatMap_singleton']

/-- The lengths of lists are noted for the selections that are visited. -/
theorem Node.listLengths_eq_map
    {shape : Shape}
    (node : Node shape) :
    node.listLengths
      = (node.visited.filter (·.shape = .selection)).map (·.node.alternatives.length) := by
  rw [listLengths, Recorder.listLengths_eq_collecting, recorded_collecting, ← List.map_flatMap,
    ← List.filter_flatMap, List.flatMap_singleton']

end FieldSelection
