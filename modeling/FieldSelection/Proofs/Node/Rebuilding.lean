import FieldSelection.Node.Traversal
import Mathlib.Data.List.Forall2

/-!
Contract: what a folder does at each node, it does to the whole tree.

Owns:
- `Ensures`, a property of the results of a program in every state;
- `Node.Rebuilt`, how a rebuilt node stands to the node that it is made from;
- `Node.Congruence`, the relations of trees that hold as soon as they hold of the parts, and
  so of a node and its rebuilt one;
- `Folder.run_ensures`, which carries a relation from the rule of a folder to its runs.

Does not own: any particular folder or relation.

A folder may change its mind as it goes, so a relation between a tree and its fold is
stated for every state that the folder may be in. Which state a folder is left in plays
no part.
-/

set_option autoImplicit false

namespace FieldSelection

/-! ## Results in every state -/

/-- Whatever state a program starts in, its result has the property. -/
def Ensures {σ Result : Type} (program : StateM σ Result) (property : Result → Prop) : Prop :=
  ∀ state, property (program.run state).1

namespace Ensures

variable {σ Result Next : Type} {property otherProperty : Result → Prop}
variable {nextProperty : Next → Prop}

theorem pure
    {result : Result}
    (holds : property result) :
    Ensures (Pure.pure result : StateM σ Result) property :=
  fun _ => holds

/-- Nothing needs to be known of a result that plays no part in what follows. -/
theorem trivial (program : StateM σ Result) : Ensures program fun _ => True :=
  fun _ => True.intro

theorem imp
    {program : StateM σ Result}
    (first : Ensures program property)
    (later : ∀ result, property result → otherProperty result) :
    Ensures program otherProperty :=
  fun state => later _ (first state)

theorem bind
    {program : StateM σ Result}
    {continuation : Result → StateM σ Next}
    (first : Ensures program property)
    (later : ∀ result, property result → Ensures (continuation result) nextProperty) :
    Ensures (program >>= continuation) nextProperty :=
  fun state => later _ (first state) _

theorem map
    {program : StateM σ Result}
    {function : Result → Next}
    (first : Ensures program property)
    (later : ∀ result, property result → nextProperty (function result)) :
    Ensures (function <$> program) nextProperty :=
  fun state => later _ (first state)

/-- Programs run over a list give a list of results, each with the property that its entry asks for. -/
theorem mapM
    {Entry : Type}
    {related : Entry → Result → Prop}
    {program : Entry → StateM σ Result}
    {entries : List Entry}
    (each : ∀ entry ∈ entries, Ensures (program entry) (related entry)) :
    Ensures (entries.mapM program) (List.Forall₂ related entries) := by
  induction entries with
  | nil => exact Ensures.pure List.Forall₂.nil
  | cons entry entries inductionHypothesis =>
      have othersEach := inductionHypothesis fun other member => each other (by simp [member])
      rw [List.mapM_cons]
      refine (each entry (by simp)).bind ?_
      intro result entryRelated
      refine othersEach.bind ?_
      intro results othersRelated
      exact Ensures.pure (List.Forall₂.cons entryRelated othersRelated)

end Ensures

/-! ## Rebuilt nodes -/

/-- The second node is built as the first is, of parts that are related to its own. The parts of a
selection are its alternatives. -/
inductive Node.Rebuilt (Related : {shape : Shape} → Node shape → Node shape → Prop) :
    {shape : Shape} → Node shape → Node shape → Prop where
  | word (word : Word) : Rebuilt Related word word
  | wildcard (wildcard : Wildcard) : Rebuilt Related wildcard wildcard
  | ofWord {old new : Word} : Related old new → Rebuilt Related (.ofWord old) (.ofWord new)
  | ofWildcard {old new : Wildcard} :
      Related old new → Rebuilt Related (.ofWildcard old) (.ofWildcard new)
  | ofName {old new : Name} : Related old new → Rebuilt Related (.ofName old) (.ofName new)
  | ofSubSelection {old new : SubSelection} :
      Related old new → Rebuilt Related (.ofSubSelection old) (.ofSubSelection new)
  | scope {old new : Name} {oldBody newBody : Selection} :
      Related old new →
      Related oldBody newBody →
      Rebuilt Related (.scope old oldBody) (.scope new newBody)
  | ofField {old new : Field} : Related old new → Rebuilt Related (.ofField old) (.ofField new)
  | ofChain {old new : Chain} : Related old new → Rebuilt Related (.ofChain old) (.ofChain new)
  | slash {old new : Selector} {oldLast newLast : Field} :
      Related old new →
      Related oldLast newLast →
      Rebuilt Related (.slash old oldLast) (.slash new newLast)
  | selection {old new : Selection} :
      List.Forall₂ Related old.alternatives new.alternatives → Rebuilt Related old new

/-! ## Relations that rebuilding keeps -/

/-- A relation of trees that holds of leaves with themselves, and of nodes whose parts it holds of. -/
structure Node.Congruence
    (Related : {shape : Shape} → Node shape → Node shape → Prop) : Prop where
  word (word : Word) : Related word word
  wildcard (wildcard : Wildcard) : Related wildcard wildcard
  ofWord {old new : Word} : Related old new → Related (.ofWord old) (.ofWord new)
  ofWildcard {old new : Wildcard} : Related old new → Related (.ofWildcard old) (.ofWildcard new)
  ofName {old new : Name} : Related old new → Related (.ofName old) (.ofName new)
  ofSubSelection {old new : SubSelection} :
    Related old new → Related (.ofSubSelection old) (.ofSubSelection new)
  scope {old new : Name} {oldBody newBody : Selection} :
    Related old new → Related oldBody newBody → Related (.scope old oldBody) (.scope new newBody)
  ofField {old new : Field} : Related old new → Related (.ofField old) (.ofField new)
  ofChain {old new : Chain} : Related old new → Related (.ofChain old) (.ofChain new)
  slash {old new : Selector} {oldLast newLast : Field} :
    Related old new → Related oldLast newLast → Related (.slash old oldLast) (.slash new newLast)
  selection {old new : Selection} :
    List.Forall₂ Related old.alternatives new.alternatives → Related old new

/-- The relation with its sides exchanged holds of trees in the same way. -/
theorem Node.Congruence.flip
    {Related : {shape : Shape} → Node shape → Node shape → Prop}
    (congruence : Node.Congruence Related) :
    Node.Congruence fun old new => Related new old where
  word := congruence.word
  wildcard := congruence.wildcard
  ofWord := congruence.ofWord
  ofWildcard := congruence.ofWildcard
  ofName := congruence.ofName
  ofSubSelection := congruence.ofSubSelection
  scope := congruence.scope
  ofField := congruence.ofField
  ofChain := congruence.ofChain
  slash := congruence.slash
  selection related := congruence.selection related.flip

theorem Node.Congruence.of_rebuilt
    {Related : {shape : Shape} → Node shape → Node shape → Prop}
    (congruence : Node.Congruence Related)
    {shape : Shape}
    {old new : Node shape}
    (rebuilt : Node.Rebuilt Related old new) :
    Related old new := by
  cases rebuilt with
  | word word => exact congruence.word word
  | wildcard wildcard => exact congruence.wildcard wildcard
  | ofWord word => exact congruence.ofWord word
  | ofWildcard wildcard => exact congruence.ofWildcard wildcard
  | ofName name => exact congruence.ofName name
  | ofSubSelection subSelection => exact congruence.ofSubSelection subSelection
  | scope name body => exact congruence.scope name body
  | ofField field => exact congruence.ofField field
  | ofChain chain => exact congruence.ofChain chain
  | slash init last => exact congruence.slash init last
  | selection alternatives => exact congruence.selection alternatives

/-- Each result of a list comes from some entry. -/
theorem exists_mem_of_forall₂
    {Entry Result : Type}
    {related : Entry → Result → Prop}
    {entries : List Entry}
    {results : List Result}
    (each : List.Forall₂ related entries results) :
    ∀ result ∈ results, ∃ entry ∈ entries, related entry result := by
  induction each with
  | nil => simp
  | cons first _ inductionHypothesis =>
      intro result member
      rcases List.mem_cons.1 member with rfl | member
      · exact ⟨_, List.mem_cons_self, first⟩
      · obtain ⟨entry, inEntries, related⟩ := inductionHypothesis result member
        exact ⟨entry, List.mem_cons_of_mem _ inEntries, related⟩

section Folders

variable {σ : Type} {Related : {shape : Shape} → Node shape → Node shape → Prop}

theorem rebuild_ensures_rebuilt
    {shape : Shape}
    {node : Node shape}
    {fold : Descent (fun shape => StateM σ (Node shape)) node}
    (below : ∀ {child : Shape} (part : Node child) (smaller : sizeOf part < sizeOf node),
      Ensures (fold part smaller) (Related part)) :
    Ensures (rebuild shape node fold) (Node.Rebuilt Related node) := by
  match shape, node with
  | .selection, selection =>
      have folded : Ensures
          (selection.alternatives.attach.mapM fun alternative =>
            fold alternative.val (Node.sizeOf_lt_of_mem_alternatives alternative.property))
          (List.Forall₂ (fun alternative => Related alternative.val)
            selection.alternatives.attach) :=
        Ensures.mapM fun _ _ => below _ _
      refine folded.map ?_
      intro results related
      rw [← List.forall₂_map_left_iff, List.attach_map_subtype_val] at related
      have nonempty : results ≠ [] := by
        intro empty
        rw [empty, List.forall₂_nil_right_iff] at related
        exact selection.alternatives_ne_nil related
      apply Node.Rebuilt.selection
      rw [selection.alternatives_withAlternatives nonempty]
      exact related
  | .selector, .ofField field => exact (below field _).map fun _ => .ofField
  | .selector, .ofChain chain => exact (below chain _).map fun _ => .ofChain
  | .chain, .slash init last =>
      refine (below init Node.init_lt).bind ?_
      intro newInit initRelated
      refine (below last Node.last_lt).bind ?_
      intro newLast lastRelated
      exact Ensures.pure (.slash initRelated lastRelated)
  | .field, .ofName name => exact (below name _).map fun _ => .ofName
  | .field, .ofSubSelection subSelection =>
      exact (below subSelection _).map fun _ => .ofSubSelection
  | .subSelection, .scope name body =>
      refine (below name Node.scopeName_lt).bind ?_
      intro newName nameRelated
      refine (below body Node.scopeBody_lt).bind ?_
      intro newBody bodyRelated
      exact Ensures.pure (.scope nameRelated bodyRelated)
  | .name, .ofWord word => exact (below word _).map fun _ => .ofWord
  | .name, .ofWildcard wildcard => exact (below wildcard _).map fun _ => .ofWildcard
  | .word, word => exact Ensures.pure (.word word)
  | .wildcard, wildcard => exact Ensures.pure (.wildcard wildcard)

/-- A node is related to the node that is rebuilt of parts that are related to its own. -/
theorem rebuild_ensures
    (congruence : Node.Congruence Related)
    {shape : Shape}
    {node : Node shape}
    {fold : Descent (fun shape => StateM σ (Node shape)) node}
    (below : ∀ {child : Shape} (part : Node child) (smaller : sizeOf part < sizeOf node),
      Ensures (fold part smaller) (Related part)) :
    Ensures (rebuild shape node fold) (Related node) :=
  (rebuild_ensures_rebuilt below).imp fun _ => congruence.of_rebuilt

/-- A relation that the rule of a folder keeps at each node is kept by a run of the folder. -/
theorem Folder.run_ensures
    {folder : Folder (StateM σ)}
    (rule : ∀ {shape : Shape} (node : Node shape)
      (fold : Descent (fun shape => StateM σ (Node shape)) node),
      (∀ {child : Shape} (part : Node child) (smaller : sizeOf part < sizeOf node),
        Ensures (fold part smaller) (Related part)) →
      Ensures (folder shape node fold) (Related node))
    {shape : Shape}
    (node : Node shape) :
    Ensures (folder.run node) (Related node) := by
  rw [Traversal.run_eq]
  apply rule
  intro child part smaller
  exact run_ensures rule part
termination_by sizeOf node

end Folders

end FieldSelection
