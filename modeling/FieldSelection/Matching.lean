import FieldSelection.Node

/-!
Contract: which paths a tree selects.

Owns:
- `Path`, the names that lead from the root of a document to a value in it;
- `Node.selects`, which decides for a node of any shape whether it selects a path.

Does not own: the flat patterns that say the same without recursion on the path
(`FieldSelection.Matching.Pattern`).

A word takes one segment, its own text; the wildcard takes any one segment. The
last step of a chain takes the last segment, and the steps before it take the
rest, of which there is at least one segment. A sub-selection selects its name,
and below its name whatever the body selects. No node selects the empty path.
-/

set_option autoImplicit false

namespace FieldSelection

/-- The names of the segments from the root of a document down to a value. -/
abbrev Path := List String

/-- Whether a node selects a path on its own. -/
def Node.selects : {shape : Shape} → Node shape → Path → Bool
  | _, .literal text, path => path == [text]
  | _, .star, path => path.length == 1
  | _, .ofWord word, path => word.selects path
  | _, .ofWildcard wildcard, path => wildcard.selects path
  | _, .ofName name, path => name.selects path
  | _, .ofSubSelection subSelection, path => subSelection.selects path
  | _, .scope name body, path =>
    match path with
    | [] => false
    | head :: below => name.selects [head] && (below.isEmpty || body.selects below)
  | _, .ofField field, path => field.selects path
  | _, .ofChain chain, path => chain.selects path
  | _, .slash init last, path =>
    match path.getLast? with
    | none => false
    | some segment =>
      !path.dropLast.isEmpty && init.selects path.dropLast && last.selects [segment]
  | _, .only alternative, path => alternative.selects path
  | _, .cons alternative rest, path => alternative.selects path || rest.selects path

/-- The empty path leads to no value that could be selected. -/
theorem Node.selects_nil
    {shape : Shape}
    (node : Node shape) :
    node.selects [] = false := by
  induction node <;> simp_all [Node.selects]

/-- A selection selects what one of its alternatives selects. -/
theorem Node.selects_eq_any
    (selection : Selection)
    (path : Path) :
    selection.selects path
      = selection.alternatives.any fun alternative => alternative.selects path := by
  match selection with
  | .only alternative => simp [Node.selects, Node.alternatives]
  | .cons alternative rest =>
      simp [Node.selects, Node.alternatives, Node.selects_eq_any rest path]

/-- A sub-selection takes one segment from the front, and leaves the others, if any, to its body. -/
theorem Node.selects_scope_iff
    {name : Name}
    {body : Selection}
    {path : Path} :
    (Node.scope name body).selects path = true
      ↔ ∃ segment below, path = segment :: below
          ∧ name.selects [segment] = true
          ∧ (below = [] ∨ body.selects below = true) := by
  constructor
  · intro selected
    cases path with
    | nil => cases selected
    | cons segment below =>
        refine ⟨segment, below, rfl, ?_⟩
        simpa [selects] using selected
  · rintro ⟨segment, below, rfl, headSelected, belowSelected⟩
    simp [selects, headSelected, belowSelected]

/-- The guard against a single segment is idle, since no steps select the empty path. -/
theorem Node.selects_slash_concat
    (init : Selector)
    (last : Field)
    (front : Path)
    (segment : String) :
    (Node.slash init last).selects (front ++ [segment])
      = (init.selects front && last.selects [segment]) := by
  by_cases single : front = []
  · simp [single, selects, init.selects_nil]
  · simp [selects, List.isEmpty_eq_false_iff.2 single]

/-- A chain takes one segment from the back, and leaves the others to its first steps. -/
theorem Node.selects_slash_iff
    {init : Selector}
    {last : Field}
    {path : Path} :
    (Node.slash init last).selects path = true
      ↔ ∃ front segment, path = front ++ [segment]
          ∧ init.selects front = true
          ∧ last.selects [segment] = true := by
  constructor
  · intro selected
    rcases List.eq_nil_or_concat path with rfl | ⟨front, segment, rfl⟩
    · rw [selects_nil] at selected
      cases selected
    · refine ⟨front, segment, List.concat_eq_append, ?_⟩
      rw [List.concat_eq_append, selects_slash_concat] at selected
      exact Bool.and_eq_true_iff.1 selected
  · rintro ⟨front, segment, rfl, frontSelected, lastSelected⟩
    rw [selects_slash_concat, frontSelected, lastSelected]
    rfl

end FieldSelection
