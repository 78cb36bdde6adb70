import FieldSelection.Proofs.Node.Folding
import FieldSelection.Proofs.Node.Rebuilding
import FieldSelection.Proofs.Node.Visiting

/-!
Contract: a tree is its skeleton and its leaves, and a folder of the leaves acts on the leaves alone.

Owns:
- `Leaf`, `Node.fringe`, the leaves of a tree in source order, and `Node.skeleton`, what
  is left of a tree without the texts of its words;
- the tree that is determined by the two;
- the records of visitors that have nothing to record but leaves;
- the runs of a folder with rules for the leaves only, in terms of the two.

Does not own: the recursion that such a folder amounts to (`FieldSelection.Proofs.Node.Folding`).

That skeleton and leaves determine the tree is itself told by a traversal: the one that
puts leaves from a given list, one after another, in place of those that it meets.
-/

set_option autoImplicit false

namespace FieldSelection

/-- A leaf of a tree. -/
inductive Leaf where
  | ofWord (word : Word)
  | ofWildcard (wildcard : Wildcard)
deriving DecidableEq

namespace Leaf

/-- The token that a leaf is written with. -/
def token : Leaf → Token
  | .ofWord word => .word word.text
  | .ofWildcard _ => .wildcard

/-- The visit to a leaf. -/
def visit : Leaf → AnyNode
  | .ofWord word => ⟨.word, word⟩
  | .ofWildcard wildcard => ⟨.wildcard, wildcard⟩

/-- What the rules for words and wildcards make of a leaf. -/
def rewrite
    {m : Type → Type}
    [Monad m]
    (onWord : Word → m Word)
    (onWildcard : Wildcard → m Wildcard) :
    Leaf → m Leaf
  | .ofWord word => .ofWord <$> onWord word
  | .ofWildcard wildcard => .ofWildcard <$> onWildcard wildcard

/-- Takes the next leaf in place of a word. A leaf of the other shape is left where it is. -/
def nextWord (word : Word) : StateM (List Leaf) Word := fun
  | .ofWord next :: others => (next, others)
  | leaves => (word, leaves)

/-- Takes the next leaf in place of a wildcard. A leaf of the other shape is left where it is. -/
def nextWildcard (wildcard : Wildcard) : StateM (List Leaf) Wildcard := fun
  | .ofWildcard next :: others => (next, others)
  | leaves => (wildcard, leaves)

end Leaf

namespace Node

/-- The leaves of a tree in source order. -/
def fringe : {shape : Shape} → Node shape → List Leaf
  | _, .literal text => [.ofWord (.literal text)]
  | _, .star => [.ofWildcard .star]
  | _, .ofWord word => word.fringe
  | _, .ofWildcard wildcard => wildcard.fringe
  | _, .ofName name => name.fringe
  | _, .ofSubSelection subSelection => subSelection.fringe
  | _, .scope name body => name.fringe ++ body.fringe
  | _, .ofField field => field.fringe
  | _, .ofChain chain => chain.fringe
  | _, .slash init last => init.fringe ++ last.fringe
  | _, .only alternative => alternative.fringe
  | _, .cons alternative rest => alternative.fringe ++ rest.fringe

/-- The tree without the texts of its words. What is left are the shapes of its nodes, and the
number of alternatives in each list. -/
def skeleton : {shape : Shape} → Node shape → Node shape
  | _, .literal _ => .literal ""
  | _, .star => .star
  | _, .ofWord word => .ofWord word.skeleton
  | _, .ofWildcard wildcard => .ofWildcard wildcard.skeleton
  | _, .ofName name => .ofName name.skeleton
  | _, .ofSubSelection subSelection => .ofSubSelection subSelection.skeleton
  | _, .scope name body => .scope name.skeleton body.skeleton
  | _, .ofField field => .ofField field.skeleton
  | _, .ofChain chain => .ofChain chain.skeleton
  | _, .slash init last => .slash init.skeleton last.skeleton
  | _, .only alternative => .only alternative.skeleton
  | _, .cons alternative rest => .cons alternative.skeleton rest.skeleton

end Node

/-! ## Words and wildcards -/

theorem Word.fringe_eq : ∀ word : Word, word.fringe = [.ofWord word]
  | .literal _ => rfl

theorem Word.skeleton_eq : ∀ word : Word, word.skeleton = .literal ""
  | .literal _ => rfl

theorem Wildcard.fringe_eq : ∀ wildcard : Wildcard, wildcard.fringe = [.ofWildcard wildcard]
  | .star => rfl

theorem Wildcard.skeleton_eq : ∀ wildcard : Wildcard, wildcard.skeleton = .star
  | .star => rfl

namespace Node

/-! ## Trees of one skeleton -/

/-- The leaves of a tree, put one after another into its skeleton, make the tree again. -/
theorem run_traverseLeaves_skeleton
    {shape : Shape}
    (node : Node shape)
    (others : List Leaf) :
    (node.skeleton.traverseLeaves Leaf.nextWord Leaf.nextWildcard).run (node.fringe ++ others)
      = pure (node, others) := by
  induction node generalizing others with
  | literal text => rfl
  | star => rfl
  | scope name body nameHypothesis bodyHypothesis =>
      simp [skeleton, traverseLeaves, fringe, nameHypothesis, bodyHypothesis]
  | slash init last initHypothesis lastHypothesis =>
      simp [skeleton, traverseLeaves, fringe, initHypothesis, lastHypothesis]
  | cons alternative rest alternativeHypothesis restHypothesis =>
      simp [skeleton, traverseLeaves, fringe, alternativeHypothesis, restHypothesis]
  | _ part inductionHypothesis => simp [skeleton, traverseLeaves, fringe, inductionHypothesis]

theorem eq_of_skeleton_eq_of_fringe_eq
    {shape : Shape}
    {left right : Node shape}
    (sameSkeleton : left.skeleton = right.skeleton)
    (sameFringe : left.fringe = right.fringe) :
    left = right := by
  have refilled := left.run_traverseLeaves_skeleton []
  rw [sameSkeleton, sameFringe, right.run_traverseLeaves_skeleton] at refilled
  exact (congrArg Prod.fst refilled).symm

/-- A visitor that has nothing to record for inner nodes comes upon the leaves in source order. -/
theorem flatMap_visited_eq_flatMap_fringe
    {Item : Type}
    {items : AnyNode → List Item}
    (quiet : ∀ visit : AnyNode, visit.shape.isInner = true → items visit = [])
    {shape : Shape}
    (node : Node shape) :
    node.visited.flatMap items = node.fringe.flatMap fun leaf => items leaf.visit := by
  have below : ∀ {shape : Shape} (node : Node shape), shape.isInner = true →
      node.visited.flatMap items = node.visited.tail.flatMap items := by
    intro shape node inner
    rw [node.visited_eq_cons_tail, List.flatMap_cons, quiet _ inner, List.nil_append,
      List.tail_cons]
  induction node with
  | literal text => simp [visited, fringe, Leaf.visit]
  | star => simp [visited, fringe, Leaf.visit]
  | scope name body nameHypothesis bodyHypothesis =>
      rw [below _ rfl]
      simp [visited, fringe, nameHypothesis, bodyHypothesis]
  | slash init last initHypothesis lastHypothesis =>
      rw [below _ rfl]
      simp [visited, fringe, initHypothesis, lastHypothesis]
  | cons alternative rest alternativeHypothesis restHypothesis =>
      rw [below rest rfl] at restHypothesis
      rw [below _ rfl]
      simp [visited, fringe, alternativeHypothesis, restHypothesis]
  | _ part inductionHypothesis =>
      rw [below _ rfl]
      exact inductionHypothesis

theorem leaves_eq_map_fringe
    {shape : Shape}
    (node : Node shape) :
    node.leaves = node.fringe.map Leaf.token := by
  rw [leaves, Recorder.leaves_eq_collecting, recorded_collecting,
    flatMap_visited_eq_flatMap_fringe, List.map_eq_flatMap]
  · congr
    funext leaf
    match leaf with
    | .ofWord (.literal text) => rfl
    | .ofWildcard .star => rfl
  · rintro ⟨shape, inner⟩ isInner
    cases inner <;> first | rfl | cases isInner

theorem mem_words_iff
    {shape : Shape}
    {node : Node shape}
    {text : String} :
    text ∈ node.words ↔ Leaf.ofWord (.literal text) ∈ node.fringe := by
  rw [words, Recorder.words_eq_collecting, recorded_collecting,
    flatMap_visited_eq_flatMap_fringe, List.mem_flatMap]
  · constructor
    · rintro ⟨leaf, member, found⟩
      match leaf with
      | .ofWord (.literal other) =>
          rw [List.mem_singleton.1 found]
          exact member
    · intro member
      exact ⟨_, member, List.mem_singleton_self text⟩
  · rintro ⟨shape, inner⟩ isInner
    cases inner <;> first | rfl | cases isInner

/-! ## Leaves that are replaced -/

theorem fringe_traverseLeaves
    {m : Type → Type}
    [Monad m]
    [LawfulMonad m]
    (onWord : Word → m Word)
    (onWildcard : Wildcard → m Wildcard)
    {shape : Shape}
    (node : Node shape) :
    fringe <$> node.traverseLeaves onWord onWildcard
      = node.fringe.mapM (Leaf.rewrite onWord onWildcard) := by
  induction node with
  | literal text => simp [traverseLeaves, fringe, Leaf.rewrite, funext Word.fringe_eq]
  | star => simp [traverseLeaves, fringe, Leaf.rewrite, funext Wildcard.fringe_eq]
  | scope name body nameHypothesis bodyHypothesis =>
      simp [traverseLeaves, fringe, ← nameHypothesis, ← bodyHypothesis]
  | slash init last initHypothesis lastHypothesis =>
      simp [traverseLeaves, fringe, ← initHypothesis, ← lastHypothesis]
  | cons alternative rest alternativeHypothesis restHypothesis =>
      simp [traverseLeaves, fringe, ← alternativeHypothesis, ← restHypothesis]
  | _ part inductionHypothesis => simp [traverseLeaves, fringe, ← inductionHypothesis]

theorem skeleton_traverseLeaves_ensures
    {σ : Type}
    (onWord : Word → StateM σ Word)
    (onWildcard : Wildcard → StateM σ Wildcard)
    {shape : Shape}
    (node : Node shape) :
    Ensures (node.traverseLeaves onWord onWildcard)
      fun folded => folded.skeleton = node.skeleton := by
  induction node with
  | literal text => exact fun state => Word.skeleton_eq _
  | star => exact fun state => Wildcard.skeleton_eq _
  | scope name body nameHypothesis bodyHypothesis =>
      refine nameHypothesis.bind ?_
      intro newName sameName
      refine bodyHypothesis.bind ?_
      intro newBody sameBody
      exact Ensures.pure (by rw [skeleton, skeleton, sameName, sameBody])
  | slash init last initHypothesis lastHypothesis =>
      refine initHypothesis.bind ?_
      intro newInit sameInit
      refine lastHypothesis.bind ?_
      intro newLast sameLast
      exact Ensures.pure (by rw [skeleton, skeleton, sameInit, sameLast])
  | cons alternative rest alternativeHypothesis restHypothesis =>
      refine alternativeHypothesis.bind ?_
      intro newAlternative sameAlternative
      refine restHypothesis.bind ?_
      intro newRest sameRest
      exact Ensures.pure (by rw [skeleton, skeleton, sameAlternative, sameRest])
  | _ part inductionHypothesis =>
      refine inductionHypothesis.map ?_
      intro newPart samePart
      rw [skeleton, skeleton, samePart]

end Node

theorem Folder.skeleton_and_fringe_of_run_ofLeaves
    {σ : Type}
    {onWord : Word → StateM σ Word}
    {onWildcard : Wildcard → StateM σ Wildcard}
    {shape : Shape}
    {node folded : Node shape}
    {state final : σ}
    (run : ((ofLeaves onWord onWildcard).run node).run state = (folded, final)) :
    folded.skeleton = node.skeleton
      ∧ (node.fringe.mapM (Leaf.rewrite onWord onWildcard)).run state = (folded.fringe, final) := by
  rw [run_ofLeaves] at run
  have sameSkeleton := node.skeleton_traverseLeaves_ensures onWord onWildcard state
  rw [run] at sameSkeleton
  refine ⟨sameSkeleton, ?_⟩
  rw [← Node.fringe_traverseLeaves, StateT.run_map, run]
  rfl

/-- A folder with rules for words and wildcards gives the one tree that has the skeleton of the
given tree, and for leaves what the rules make of the given leaves, in source order and in one
state that goes through all of them. A visitor of the leaves reports them in that order. A copy is
the tree itself. -/
theorem Folder.run_ofLeaves_in_order :
    (∀ {σ : Type} (onWord : Word → StateM σ Word) (onWildcard : Wildcard → StateM σ Wildcard)
        {shape : Shape} (node folded : Node shape) (state final : σ),
        ((ofLeaves onWord onWildcard).run node).run state = (folded, final)
          ↔ folded.skeleton = node.skeleton
              ∧ (node.fringe.mapM (Leaf.rewrite onWord onWildcard)).run state
                  = (folded.fringe, final))
      ∧ (∀ {shape : Shape} (node : Node shape), node.leaves = node.fringe.map Leaf.token)
      ∧ ∀ {shape : Shape} (node : Node shape), node.copy = node := by
  refine ⟨?_, fun node => node.leaves_eq_map_fringe, fun node => node.copy_eq⟩
  intro σ onWord onWildcard shape node folded state final
  constructor
  · exact skeleton_and_fringe_of_run_ofLeaves
  · rintro ⟨foldedSkeleton, foldedRun⟩
    -- Whatever the folder gives has the skeleton and the leaves that `folded` has.
    generalize run : ((ofLeaves onWord onWildcard).run node).run state = result
    obtain ⟨result, resultFinal⟩ := result
    obtain ⟨resultSkeleton, resultRun⟩ := skeleton_and_fringe_of_run_ofLeaves run
    rw [foldedRun, Prod.mk.injEq] at resultRun
    obtain ⟨sameFringe, sameFinal⟩ := resultRun
    refine Prod.ext ?_ sameFinal.symm
    apply Node.eq_of_skeleton_eq_of_fringe_eq _ sameFringe.symm
    rw [resultSkeleton, foldedSkeleton]

end FieldSelection
