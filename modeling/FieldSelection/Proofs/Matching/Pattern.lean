import FieldSelection.Matching
import FieldSelection.Matching.Pattern

/-!
Contract: a node selects the paths that one of its patterns accepts.

Owns:
- the paths that a pattern accepts, cut at the front and at the back;
- the one segment that a field can take by itself;
- the equivalence of `Node.selects` and `Node.patterns`.

Does not own: the order of trees by width, or the renaming of words.

A pattern is compared with a path name by name, from the front. A chain takes its
path from the back and a sub-selection from the front, so a pattern is cut at
either end, and the path is cut in the same place.
-/

set_option autoImplicit false

namespace FieldSelection

namespace Pattern

/-- A pattern accepts a path that has as many segments, each accepted by the name at its place. -/
theorem accepts_iff_zip
    {pattern : Pattern}
    {path : Path} :
    pattern.accepts path = true
      ↔ pattern.length = path.length
          ∧ ∀ pair ∈ pattern.zip path, pair.1.accepts pair.2 = true := by
  induction pattern generalizing path with
  | nil => cases path <;> simp [accepts]
  | cons name names inductionHypothesis =>
      cases path with
      | nil => simp [accepts]
      | cons segment segments =>
          rw [accepts, Bool.and_eq_true_iff, inductionHypothesis]
          simp [and_left_comm]

theorem accepts_nil_iff
    {path : Path} :
    Pattern.accepts [] path = true ↔ path = [] := by
  cases path <;> simp [accepts]

theorem accepts_cons_iff
    {name : Name}
    {names : Pattern}
    {path : Path} :
    Pattern.accepts (name :: names) path = true
      ↔ ∃ segment below, path = segment :: below
          ∧ name.accepts segment = true
          ∧ names.accepts below = true := by
  cases path with
  | nil => simp [accepts]
  | cons segment below =>
      rw [accepts, Bool.and_eq_true_iff]
      constructor
      · intro accepted
        exact ⟨segment, below, rfl, accepted⟩
      · rintro ⟨_, _, same, accepted⟩
        cases same
        exact accepted

theorem accepts_append_iff
    {front back : Pattern}
    {path : Path} :
    Pattern.accepts (front ++ back) path = true
      ↔ ∃ frontPath backPath, path = frontPath ++ backPath
          ∧ front.accepts frontPath = true
          ∧ back.accepts backPath = true := by
  induction front generalizing path with
  | nil =>
      constructor
      · intro accepted
        exact ⟨[], path, rfl, rfl, accepted⟩
      · rintro ⟨frontPath, backPath, rfl, frontAccepted, backAccepted⟩
        rw [accepts_nil_iff.1 frontAccepted]
        exact backAccepted
  | cons name names inductionHypothesis =>
      rw [List.cons_append, accepts_cons_iff]
      constructor
      · rintro ⟨segment, below, rfl, segmentAccepted, belowAccepted⟩
        obtain ⟨frontPath, backPath, rfl, frontAccepted, backAccepted⟩ :=
          inductionHypothesis.1 belowAccepted
        refine ⟨segment :: frontPath, backPath, rfl, ?_, backAccepted⟩
        exact accepts_cons_iff.2 ⟨segment, frontPath, rfl, segmentAccepted, frontAccepted⟩
      · rintro ⟨frontPath, backPath, rfl, frontAccepted, backAccepted⟩
        obtain ⟨segment, below, rfl, segmentAccepted, belowAccepted⟩ :=
          accepts_cons_iff.1 frontAccepted
        refine ⟨segment, below ++ backPath, rfl, segmentAccepted, ?_⟩
        exact inductionHypothesis.2 ⟨below, backPath, rfl, belowAccepted, backAccepted⟩

theorem accepts_singleton_iff
    {name : Name}
    {path : Path} :
    Pattern.accepts [name] path = true
      ↔ ∃ segment, path = [segment] ∧ name.accepts segment = true := by
  simp [accepts_cons_iff, accepts_nil_iff]

end Pattern

/-! ## Nodes that take one segment -/

theorem Name.selects_singleton
    (name : Name)
    (segment : String) :
    name.selects [segment] = Name.accepts name segment := by
  cases name with
  | ofWord word =>
      cases word with
      | literal text =>
          rw [Bool.eq_iff_iff]
          simp only [Node.selects, Name.accepts, Node.text, beq_iff_eq, List.cons.injEq, and_true]
          exact eq_comm
  | ofWildcard wildcard =>
      cases wildcard
      rfl

/-- Whatever stands in its body, a field takes a single segment by its name. -/
theorem Field.selects_singleton
    (field : Field)
    (segment : String) :
    field.selects [segment] = Name.accepts (Field.head field) segment := by
  match field with
  | .ofName name => exact Name.selects_singleton name segment
  | .ofSubSelection (.scope name body) =>
      simp [Node.selects, Field.head, Name.selects_singleton]

/-! ## Nodes of every shape -/

namespace Node

theorem mem_patterns_scope_iff
    {name : Name}
    {body : Selection}
    {pattern : Pattern} :
    pattern ∈ (Node.scope name body).patterns
      ↔ ∃ names, pattern = name :: names ∧ (names = [] ∨ names ∈ body.patterns) := by
  rw [patterns, List.mem_cons, List.mem_map]
  constructor
  · rintro (rfl | ⟨names, member, rfl⟩)
    · exact ⟨[], rfl, .inl rfl⟩
    · exact ⟨names, rfl, .inr member⟩
  · rintro ⟨names, rfl, rfl | member⟩
    · left
      rfl
    · right
      exact ⟨names, member, rfl⟩

theorem patterns_ne_nil
    {shape : Shape}
    (node : Node shape) :
    ∀ pattern ∈ node.patterns, pattern ≠ [] := by
  induction node with
  | scope name body _ _ =>
      intro pattern member
      obtain ⟨names, rfl, -⟩ := mem_patterns_scope_iff.1 member
      exact List.cons_ne_nil name names
  | slash init last _ _ => simp [patterns]
  | cons alternative rest alternativeHypothesis restHypothesis =>
      rw [patterns, List.forall_mem_append]
      exact ⟨alternativeHypothesis, restHypothesis⟩
  | literal text => simp [patterns]
  | star => simp [patterns]
  | _ => assumption

/-- The recursion on the path and the patterns say the same about every node. -/
theorem selects_iff_exists_accepts
    {shape : Shape}
    (node : Node shape)
    (path : Path) :
    node.selects path = true ↔ ∃ pattern ∈ node.patterns, Pattern.accepts pattern path = true := by
  induction node generalizing path with
  | literal text => simp [patterns, Pattern.accepts_singleton_iff, selects, Name.accepts, Node.text]
  | star =>
      simp [patterns, Pattern.accepts_singleton_iff, selects, Name.accepts, List.length_eq_one_iff]
  | ofWord _ inductionHypothesis
  | ofWildcard _ inductionHypothesis
  | ofName _ inductionHypothesis
  | ofSubSelection _ inductionHypothesis
  | ofField _ inductionHypothesis
  | ofChain _ inductionHypothesis
  | only _ inductionHypothesis => exact inductionHypothesis path
  | scope name body _ bodyHypothesis =>
      rw [selects_scope_iff]
      constructor
      · rintro ⟨segment, below, rfl, headSelected, belowSelected⟩
        have belowAccepted : ∃ names : Pattern,
            (names = [] ∨ names ∈ body.patterns) ∧ names.accepts below = true := by
          rcases belowSelected with stops | continues
          · exact ⟨[], .inl rfl, Pattern.accepts_nil_iff.2 stops⟩
          · obtain ⟨names, member, accepted⟩ := (bodyHypothesis below).1 continues
            exact ⟨names, .inr member, accepted⟩
        obtain ⟨names, listed, accepted⟩ := belowAccepted
        rw [Name.selects_singleton] at headSelected
        exact ⟨name :: names, mem_patterns_scope_iff.2 ⟨names, rfl, listed⟩,
          Pattern.accepts_cons_iff.2 ⟨segment, below, rfl, headSelected, accepted⟩⟩
      · rintro ⟨pattern, member, accepted⟩
        obtain ⟨names, rfl, listed⟩ := mem_patterns_scope_iff.1 member
        obtain ⟨segment, below, rfl, headAccepted, belowAccepted⟩ :=
          Pattern.accepts_cons_iff.1 accepted
        rw [← Name.selects_singleton] at headAccepted
        refine ⟨segment, below, rfl, headAccepted, ?_⟩
        rcases listed with rfl | member
        · left
          exact Pattern.accepts_nil_iff.1 belowAccepted
        · right
          exact (bodyHypothesis below).2 ⟨names, member, belowAccepted⟩
  | slash init last initHypothesis _ =>
      -- The last step stands for one segment only, so its own patterns do not matter.
      rw [selects_slash_iff]
      constructor
      · rintro ⟨front, segment, rfl, frontSelected, lastSelected⟩
        obtain ⟨names, member, frontAccepted⟩ := (initHypothesis front).1 frontSelected
        rw [Field.selects_singleton] at lastSelected
        have lastAccepted := Pattern.accepts_singleton_iff.2 ⟨segment, rfl, lastSelected⟩
        exact ⟨names ++ [Field.head last], List.mem_map_of_mem member,
          Pattern.accepts_append_iff.2 ⟨front, [segment], rfl, frontAccepted, lastAccepted⟩⟩
      · rintro ⟨pattern, member, accepted⟩
        obtain ⟨names, inInit, rfl⟩ := List.mem_map.1 member
        obtain ⟨front, back, rfl, frontAccepted, backAccepted⟩ :=
          Pattern.accepts_append_iff.1 accepted
        obtain ⟨segment, rfl, lastAccepted⟩ := Pattern.accepts_singleton_iff.1 backAccepted
        rw [← Field.selects_singleton] at lastAccepted
        have frontSelected := (initHypothesis front).2 ⟨names, inInit, frontAccepted⟩
        exact ⟨front, segment, rfl, frontSelected, lastAccepted⟩
  | cons alternative rest alternativeHypothesis restHypothesis =>
      rw [selects, Bool.or_eq_true_iff, alternativeHypothesis, restHypothesis, patterns]
      simp [or_and_right, exists_or]

/-- A node selects a path exactly if it has a pattern with as many names as the path has segments,
in which each name accepts the segment at its place. No pattern is empty. -/
theorem selects_iff_exists_pattern
    {shape : Shape}
    (node : Node shape) :
    (∀ pattern ∈ node.patterns, pattern ≠ [])
      ∧ ∀ path : Path,
          node.selects path = true
            ↔ ∃ pattern ∈ node.patterns, pattern.length = path.length
                ∧ ∀ pair ∈ pattern.zip path, Name.accepts pair.1 pair.2 = true := by
  refine ⟨node.patterns_ne_nil, ?_⟩
  intro path
  rw [selects_iff_exists_accepts]
  simp only [Pattern.accepts_iff_zip]

/-- A body before the last step adds a segment, and the body of the last step is passed over. -/
theorem selects_iff_exists_pattern_scope_in_chain :
    ([.ofWord (.literal "b")] : Pattern) ≠ []
      ∧ (Node.slash
          (.ofField (.ofSubSelection (.scope (.ofWildcard .star)
            (.only (.ofField (.ofName (.ofWord (.literal "b"))))))))
          (.ofSubSelection (.scope (.ofWord (.literal "c"))
            (.only (.ofField (.ofName (.ofWildcard .star))))))).selects
          ["a,b", "b", "c"] = true := by
  constructor
  · exact (selects_iff_exists_pattern (.literal "b")).1 _ List.mem_cons_self
  · apply ((selects_iff_exists_pattern _).2 _).2
    exact ⟨[.ofWildcard .star, .ofWord (.literal "b"), .ofWord (.literal "c")],
      by decide, rfl, by decide⟩

end Node

end FieldSelection
