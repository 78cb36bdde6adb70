import FieldSelection.Matching
import FieldSelection.Matching.Widening
import FieldSelection.Proofs.Node.Rebuilding
import FieldSelection.Proofs.Node.Visiting

/-!
Contract: a wider tree selects at least the paths of a narrower one.

Owns:
- the order of trees on selections, told from their alternatives;
- the paths of a tree and of the trees above it;
- the paths of trees whose lists are arranged otherwise;
- the trees made by the folders that widen and narrow, in the order;
- what these folders leave of a tree where they change all that they can.

Does not own: the flat patterns of a tree.

The order is one relation for both folders: a tree lies below its widened fold, and the
narrowed fold of a tree below the tree. Both are relations that rebuilding keeps.
-/

set_option autoImplicit false

namespace FieldSelection

/-! ## The order on selections -/

namespace Node

/-- A selection lies below another if each of its alternatives lies below one of the other's. -/
theorem below_of_forall_mem :
    {left right : Selection} →
      (∀ alternative ∈ left.alternatives,
        ∃ among ∈ right.alternatives, alternative.Below among) →
      left.Below right
  | .only alternative, _, each => by
      obtain ⟨among, member, below⟩ := each alternative (by simp [alternatives])
      exact .only member below
  | .cons alternative rest, _, each => by
      obtain ⟨among, member, below⟩ := each alternative (by simp [alternatives])
      apply Below.cons member below
      apply below_of_forall_mem
      intro other otherMember
      exact each other (by simp [alternatives, otherMember])

theorem Below.exists_of_mem
    {left right : Selection}
    (below : left.Below right) :
    ∀ alternative ∈ left.alternatives,
      ∃ among ∈ right.alternatives, alternative.Below among := by
  match left, below with
  | .only _, .only member first =>
      intro alternative inLeft
      obtain rfl := List.mem_singleton.1 inLeft
      exact ⟨_, member, first⟩
  | .cons _ rest, .cons member first others =>
      intro alternative inLeft
      rcases List.mem_cons.1 inLeft with rfl | inRest
      · exact ⟨_, member, first⟩
      · exact others.exists_of_mem alternative inRest

/-! ## Paths of wider trees -/

/-- A name selects no path but single segments. -/
theorem exists_singleton_of_name_selects
    {name : Name}
    {path : Path}
    (selected : name.selects path = true) :
    ∃ segment, path = [segment] := by
  match name with
  | .ofWord (.literal text) => exact ⟨text, by simpa [selects] using selected⟩
  | .ofWildcard .star => exact List.length_eq_one_iff.1 (by simpa [selects] using selected)

theorem Below.selects
    {shape : Shape}
    {narrow wide : Node shape}
    (below : narrow.Below wide)
    {path : Path}
    (selected : narrow.selects path = true) :
    wide.selects path = true := by
  induction below generalizing path with
  | literal text => exact selected
  | star => exact selected
  | ofWord _ inductionHypothesis
  | ofName _ inductionHypothesis
  | ofSubSelection _ inductionHypothesis
  | ofField _ inductionHypothesis
  | ofChain _ inductionHypothesis => exact inductionHypothesis selected
  | ofWildcard =>
      obtain ⟨segment, rfl⟩ := exists_singleton_of_name_selects selected
      rfl
  | opened _ inductionHypothesis =>
      -- A bare name stops at its own segment, and so may any sub-selection.
      obtain ⟨segment, rfl⟩ := exists_singleton_of_name_selects selected
      exact selects_scope_iff.2 ⟨segment, [], rfl, inductionHypothesis selected, .inl rfl⟩
  | scope _ _ nameHypothesis bodyHypothesis =>
      obtain ⟨segment, rest, rfl, headSelected, restSelected⟩ := selects_scope_iff.1 selected
      apply selects_scope_iff.2
      exact ⟨segment, rest, rfl, nameHypothesis headSelected, restSelected.imp_right bodyHypothesis⟩
  | slash _ _ initHypothesis lastHypothesis =>
      obtain ⟨front, segment, rfl, frontSelected, lastSelected⟩ := selects_slash_iff.1 selected
      apply selects_slash_iff.2
      exact ⟨front, segment, rfl, initHypothesis frontSelected, lastHypothesis lastSelected⟩
  | only member _ inductionHypothesis =>
      rw [selects_eq_any, List.any_eq_true]
      exact ⟨_, member, inductionHypothesis selected⟩
  | cons member _ _ firstHypothesis restHypothesis =>
      rcases Bool.or_eq_true_iff.1 selected with firstSelected | restSelected
      · rw [selects_eq_any, List.any_eq_true]
        exact ⟨_, member, firstHypothesis firstSelected⟩
      · exact restHypothesis restSelected

theorem Rearranged.selects_eq
    {shape : Shape}
    {left right : Node shape}
    (rearranged : left.Rearranged right)
    (path : Path) :
    left.selects path = right.selects path := by
  induction rearranged generalizing path with
  | refl node => rfl
  | trans _ _ firstHypothesis secondHypothesis =>
      exact (firstHypothesis path).trans (secondHypothesis path)
  | sameAlternatives same =>
      rw [Bool.eq_iff_iff, selects_eq_any, selects_eq_any, List.any_eq_true, List.any_eq_true]
      simp only [same]
  | ofSubSelection _ inductionHypothesis
  | ofField _ inductionHypothesis
  | ofChain _ inductionHypothesis
  | only _ inductionHypothesis => exact inductionHypothesis path
  | scope _ inductionHypothesis =>
      rw [Bool.eq_iff_iff, selects_scope_iff, selects_scope_iff]
      simp only [inductionHypothesis]
  | slash _ _ initHypothesis lastHypothesis =>
      rw [Bool.eq_iff_iff, selects_slash_iff, selects_slash_iff]
      simp only [initHypothesis, lastHypothesis]
  | cons _ _ firstHypothesis restHypothesis =>
      rw [selects, selects, firstHypothesis, restHypothesis]

end Node

theorem AnyNode.selects_asSelection
    (node : AnyNode)
    (path : Path) :
    node.asSelection.selects path = node.node.selects path := by
  obtain ⟨shape, node⟩ := node
  cases shape <;> rfl

/-! ## Folders that widen and narrow -/

theorem Node.congruence_below : Node.Congruence fun old new => old.Below new where
  word
    | .literal text => .literal text
  wildcard
    | .star => .star
  ofWord := .ofWord
  ofWildcard {_ new} _ := by
    cases new
    exact .ofWildcard
  ofName := .ofName
  ofSubSelection := .ofSubSelection
  scope := .scope
  ofField := .ofField
  ofChain := .ofChain
  slash := .slash
  selection related := below_of_forall_mem (exists_mem_of_forall₂ related.flip)

section Folders

variable {σ : Type}

theorem Folder.run_starring_ensures
    (picks : Name → StateM σ Bool)
    {shape : Shape}
    (node : Node shape) :
    Ensures ((Folder.starring picks).run node) fun widened => node.Below widened := by
  apply Folder.run_ensures
  intro shape node fold below
  cases shape with
  | name =>
      refine (Ensures.trivial (picks node)).bind ?_
      intro picked _
      cases picked with
      | true => exact Ensures.pure .ofWildcard
      | false => exact rebuild_ensures Node.congruence_below below
  | _ => exact rebuild_ensures Node.congruence_below below

theorem Node.withAlternatives_take_below
    {folded selection : Selection}
    (below : folded.Below selection) :
    (folded.withAlternatives (folded.alternatives.take 1)).Below selection := by
  have nonempty : folded.alternatives.take 1 ≠ [] := by
    simp [folded.alternatives_ne_nil]
  apply below_of_forall_mem
  rw [alternatives_withAlternatives _ nonempty]
  intro alternative member
  exact below.exists_of_mem alternative (List.mem_of_mem_take member)

theorem Folder.run_narrowing_ensures
    (closes : SubSelection → StateM σ Bool)
    (cuts : Selection → StateM σ Bool)
    {shape : Shape}
    (node : Node shape) :
    Ensures ((Folder.narrowing closes cuts).run node) fun narrowed => narrowed.Below node := by
  have congruence := Node.congruence_below.flip
  apply Folder.run_ensures
  intro shape node fold below
  match shape, node with
  | .selection, selection =>
      refine (rebuild_ensures congruence below).bind ?_
      intro folded foldedBelow
      refine (Ensures.trivial (cuts folded)).bind ?_
      intro cut _
      cases cut with
      | true => exact Ensures.pure (Node.withAlternatives_take_below foldedBelow)
      | false => exact Ensures.pure foldedBelow
  | .field, .ofSubSelection (.scope name body) =>
      refine (Ensures.trivial (closes (.scope name body))).bind ?_
      intro closed _
      cases closed with
      | true => exact (below name _).map fun _ => .opened
      | false => exact rebuild_ensures congruence below
  | .field, .ofName _
  | .selector, _
  | .chain, _
  | .subSelection, _
  | .name, _
  | .word, _
  | .wildcard, _ => exact rebuild_ensures congruence below

/-! ### Folders that change all that they can -/

/-- Below a rebuilt node there is nothing but the parts that it is built of, and what is below these. -/
theorem Node.Rebuilt.forall_mem_tail_visited
    {property : AnyNode → Prop}
    {shape : Shape}
    {old new : Node shape}
    (rebuilt : Rebuilt (fun _ new => ∀ part ∈ new.visited, property part) old new) :
    ∀ part ∈ new.visited.tail, property part := by
  rw [Node.tail_visited_eq_flatMap_children, List.forall_mem_flatMap]
  cases rebuilt with
  | word | wildcard => exact nofun
  | ofWord parts
  | ofWildcard parts
  | ofName parts
  | ofSubSelection parts
  | ofField parts
  | ofChain parts => exact List.forall_mem_singleton.2 parts
  | scope first second
  | slash first second =>
      exact List.forall_mem_cons.2 ⟨first, List.forall_mem_singleton.2 second⟩
  | selection alternatives =>
      intro child member
      obtain ⟨alternative, listed, rfl⟩ := List.mem_map.1 member
      obtain ⟨_, _, parts⟩ := exists_mem_of_forall₂ alternatives alternative listed
      exact parts

/-- Where every name is picked, no name that is left is a word. -/
theorem Folder.run_starring_every_ensures
    {shape : Shape}
    (node : Node shape) :
    Ensures ((Folder.starring fun _ => (pure true : StateM σ Bool)).run node) fun widened =>
      ∀ part ∈ widened.visited, ∀ word, part ≠ ⟨.name, .ofWord word⟩ := by
  apply Folder.run_ensures
  intro shape node fold below
  cases shape with
  | name =>
      have leaves : ∀ part ∈ (Node.ofWildcard .star).visited, ∀ word : Word,
          part ≠ ⟨.name, .ofWord word⟩ :=
        List.forall_mem_cons.2 ⟨nofun, List.forall_mem_singleton.2 nofun⟩
      exact fun _ => leaves
  | _ =>
      refine (rebuild_ensures_rebuilt below).imp ?_
      intro widened rebuilt
      rw [widened.visited_eq_cons_tail, List.forall_mem_cons]
      exact ⟨nofun, rebuilt.forall_mem_tail_visited⟩

/-- The node is no field with a body, and no list with a second alternative. -/
def AnyNode.Narrow (node : AnyNode) : Prop :=
  (∀ subSelection, node ≠ ⟨.field, .ofSubSelection subSelection⟩)
    ∧ ∀ alternative rest, node ≠ ⟨.selection, .cons alternative rest⟩

theorem Node.narrow_of_mem_visited_withAlternatives_take
    {folded : Selection}
    (below : ∀ part ∈ folded.visited.tail, part.Narrow) :
    ∀ part ∈ (folded.withAlternatives (folded.alternatives.take 1)).visited, part.Narrow := by
  obtain ⟨first, later, listed⟩ := List.exists_cons_of_ne_nil folded.alternatives_ne_nil
  rw [tail_visited_eq_flatMap, listed, List.forall_mem_flatMap] at below
  rw [listed]
  show ∀ part ∈ (Node.only first).visited, part.Narrow
  exact List.forall_mem_cons.2 ⟨⟨nofun, nofun⟩, below first List.mem_cons_self⟩

/-- Where every sub-selection is closed and every list is cut, no body is left to a name, and no
list has a second alternative. -/
theorem Folder.run_narrowing_every_ensures
    {shape : Shape}
    (node : Node shape) :
    Ensures
      ((Folder.narrowing (fun _ => (pure true : StateM σ Bool)) fun _ => pure true).run node)
      fun narrowed => ∀ part ∈ narrowed.visited, part.Narrow := by
  apply Folder.run_ensures
  intro shape node fold below
  match shape, node with
  | .selection, selection =>
      refine (rebuild_ensures_rebuilt below).bind ?_
      intro folded rebuilt
      apply Ensures.pure
      exact Node.narrow_of_mem_visited_withAlternatives_take rebuilt.forall_mem_tail_visited
  | .field, .ofSubSelection (.scope name body) =>
      refine (below name Node.nameOfSubSelection_lt).map ?_
      intro bare parts
      exact List.forall_mem_cons.2 ⟨⟨nofun, nofun⟩, parts⟩
  | .field, .ofName name =>
      refine (below name Node.bareName_lt).map ?_
      intro bare parts
      exact List.forall_mem_cons.2 ⟨⟨nofun, nofun⟩, parts⟩
  | .selector, _
  | .chain, _
  | .subSelection, _
  | .name, _
  | .word, _
  | .wildcard, _ =>
      refine (rebuild_ensures_rebuilt below).imp ?_
      intro narrowed rebuilt
      rw [narrowed.visited_eq_cons_tail, List.forall_mem_cons]
      exact ⟨⟨nofun, nofun⟩, rebuilt.forall_mem_tail_visited⟩

end Folders

/-- A wider tree selects every path of a narrower one, also if they are nodes of different shapes.
Trees whose lists hold the same alternatives select the same paths. A folder that puts wildcards
in place of words only adds paths, and one that leaves bodies and later alternatives out only takes
paths away. -/
theorem Node.selects_of_widened :
    (∀ {shape : Shape} (narrow wide : Node shape), narrow.Below wide →
        ∀ path, narrow.selects path = true → wide.selects path = true)
      ∧ (∀ narrow wide : AnyNode, narrow.asSelection.Below wide.asSelection →
          ∀ path, narrow.node.selects path = true → wide.node.selects path = true)
      ∧ (∀ {shape : Shape} (left right : Node shape), left.Rearranged right →
          ∀ path, left.selects path = right.selects path)
      ∧ (∀ {σ : Type} (picks : Name → StateM σ Bool) (state : σ) {shape : Shape}
          (node : Node shape) (path : Path), node.selects path = true →
            (((Folder.starring picks).run node).run state).1.selects path = true)
      ∧ ∀ {σ : Type} (closes : SubSelection → StateM σ Bool) (cuts : Selection → StateM σ Bool)
          (state : σ) {shape : Shape} (node : Node shape) (path : Path),
            (((Folder.narrowing closes cuts).run node).run state).1.selects path = true →
              node.selects path = true := by
  refine ⟨?_, ?_, ?_, ?_, ?_⟩
  · intro shape narrow wide below path selected
    exact below.selects selected
  · intro narrow wide below path selected
    rw [← AnyNode.selects_asSelection] at selected ⊢
    exact below.selects selected
  · intro shape left right rearranged path
    exact rearranged.selects_eq path
  · intro σ picks state shape node path selected
    exact (Folder.run_starring_ensures picks node state).selects selected
  · intro σ closes cuts state shape node path selected
    exact (Folder.run_narrowing_ensures closes cuts node state).selects selected

/-- A body opens, a word widens to a wildcard, alternatives change places and one comes twice. -/
theorem Node.selects_of_widened_opened_name :
    (Node.ofSubSelection (.scope (.ofWildcard .star)
        (.only (.ofField (.ofName (.ofWord (.literal "b"))))))).selects ["a"] = true
      ∧ Node.star.selects ["a"] = true
      ∧ (∀ path,
          (Node.cons (.ofField (.ofName (.ofWord (.literal "a"))))
              (.only (.ofField (.ofName (.ofWildcard .star))))).selects path
            = (Node.cons (.ofField (.ofName (.ofWildcard .star)))
                (.cons (.ofField (.ofName (.ofWord (.literal "a"))))
                  (.only (.ofField (.ofName (.ofWildcard .star)))))).selects path)
      ∧ (((Folder.starring (m := StateM Unit) fun _ => pure true).run
          (.ofWord (.literal "a"))).run ()).1.selects ["a"] = true
      ∧ (Node.ofSubSelection (.scope (.ofWord (.literal "a"))
          (.only (.ofField (.ofName (.ofWildcard .star)))))).selects ["a"] = true := by
  obtain ⟨widened, widenedAnyShape, rearranged, starred, narrowed⟩ := Node.selects_of_widened
  refine ⟨?_, ?_, ?_, ?_, ?_⟩
  · exact widened (.ofName (.ofWord (.literal "a"))) _ (.opened .ofWildcard) ["a"] (by decide)
  · apply widenedAnyShape ⟨.word, .literal "a"⟩ ⟨.wildcard, .star⟩ _ ["a"] (by decide)
    exact .only List.mem_cons_self (.ofField (.ofName .ofWildcard))
  · apply rearranged
    apply Node.Rearranged.sameAlternatives
    intro alternative
    simp [Node.alternatives, or_comm]
  · exact starred (fun _ => pure true) () (.ofWord (.literal "a")) ["a"] (by decide)
  · have bare : (Folder.narrowing (m := StateM Unit) (fun _ => pure true) fun _ => pure true).run
        (.ofSubSelection (.scope (.ofWord (.literal "a"))
          (.only (.ofField (.ofName (.ofWildcard .star))))))
          = pure (.ofName (.ofWord (.literal "a"))) := by
      generalize made : Folder.narrowing (m := StateM Unit) _ _ = folder
      have word : folder.run (.literal "a") = pure (.literal "a") := by
        rw [Traversal.run_eq, ← made]
        rfl
      have name : folder.run (.ofWord (.literal "a")) = Node.ofWord <$> folder.run (.literal "a") := by
        rw [Traversal.run_eq, ← made]
        rfl
      have field : folder.run (.ofSubSelection (.scope (.ofWord (.literal "a"))
          (.only (.ofField (.ofName (.ofWildcard .star))))))
            = Node.ofName <$> folder.run (.ofWord (.literal "a")) := by
        rw [Traversal.run_eq, ← made]
        rfl
      rw [field, name, word]
      rfl
    apply narrowed (fun _ => pure true) (fun _ => pure true) ()
    rw [bare]
    decide

end FieldSelection
