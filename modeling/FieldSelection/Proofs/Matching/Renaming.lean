import FieldSelection.Node.Word
import FieldSelection.Proofs.Matching.Pattern
import FieldSelection.Proofs.Node.Leaves
import Mathlib.Data.Set.Operations

/-!
Contract: a tree whose words are renamed selects the paths that are renamed alike.

Owns:
- the names and the patterns of a tree whose words are renamed;
- the words in the patterns of a tree, as words of the tree;
- the paths that the renamed tree selects.

Does not own: the reading of renamed texts (`FieldSelection.Proofs.Renaming`).

A renaming acts on a pattern name by name, and on a path segment by segment. So what it
does to the choice of a path is settled for one name and one segment: a word stands for
the same segments as before if the renaming keeps the two apart, and a wildcard stands
for every segment anyway.
-/

set_option autoImplicit false

namespace FieldSelection

variable {respell : String → String}

/-! ## Names -/

@[simp] theorem Node.mapWords_ofWord
    (word : Word) :
    (ofWord word).mapWords respell = .ofWord (.literal (respell word.text)) := by
  rw [mapWords, Folder.run_ofLeaves]
  cases word
  rfl

@[simp] theorem Node.mapWords_ofWildcard
    (wildcard : Wildcard) :
    (ofWildcard wildcard).mapWords respell = .ofWildcard wildcard := by
  rw [mapWords, Folder.run_ofLeaves]
  cases wildcard
  rfl

theorem Name.accepts_mapWords
    {name : Name}
    {segment : String}
    (accepted : name.accepts segment = true) :
    Name.accepts (name.mapWords respell) (respell segment) = true := by
  cases name with
  | ofWord word =>
      have spelled : word.text = segment := beq_iff_eq.1 accepted
      rw [Node.mapWords_ofWord, spelled]
      exact beq_self_eq_true (respell segment)
  | ofWildcard wildcard => simp [accepts]

/-- Only for a word does it matter that the renaming keeps it apart from the segment. -/
theorem Name.accepts_of_accepts_mapWords
    {name : Name}
    {segment : String}
    (apart : ∀ word, name = .ofWord word → respell word.text = respell segment →
      word.text = segment)
    (accepted : Name.accepts (name.mapWords respell) (respell segment) = true) :
    name.accepts segment = true := by
  cases name with
  | ofWord word =>
      have renamed : respell word.text = respell segment := by
        simpa [accepts, Node.text] using accepted
      exact beq_iff_eq.2 (apart word rfl renamed)
  | ofWildcard wildcard => rfl

/-! ## Patterns -/

theorem Pattern.accepts_map_mapWords_iff
    {pattern : Pattern}
    {path : Path} :
    Pattern.accepts (pattern.map (Node.mapWords respell)) (path.map respell) = true
      ↔ pattern.length = path.length
          ∧ ∀ pair ∈ pattern.zip path,
              Name.accepts (pair.1.mapWords respell) (respell pair.2) = true := by
  rw [accepts_iff_zip, List.length_map, List.length_map, List.zip_map, List.forall_mem_map]
  rfl

theorem Field.head_mapWords
    (respell : String → String)
    (field : Field) :
    Field.head (field.mapWords respell) = (Field.head field).mapWords respell := by
  simp only [Node.mapWords, Folder.run_ofLeaves]
  match field with
  | .ofName name => rfl
  | .ofSubSelection (.scope name body) => rfl

theorem Field.fringe_head_subset
    (field : Field) :
    (Field.head field).fringe ⊆ field.fringe := by
  match field with
  | .ofName name => exact List.Subset.refl _
  | .ofSubSelection (.scope name body) => exact List.subset_append_left _ _

namespace Node

/-- The patterns of a tree are renamed as its words are. -/
theorem patterns_mapWords
    {shape : Shape}
    (node : Node shape) :
    (node.mapWords respell).patterns = node.patterns.map (List.map (mapWords respell)) := by
  have renamed : mapWords respell = fun name : Name =>
      Id.run (name.traverseLeaves (fun word => .literal (respell word.text)) id) := by
    funext name
    rw [mapWords, Folder.run_ofLeaves]
  have heads := Field.head_mapWords respell
  simp only [mapWords, Folder.run_ofLeaves] at heads
  rw [mapWords, Folder.run_ofLeaves, renamed]
  induction node with
  | literal text => rfl
  | star => rfl
  | scope name body _ bodyHypothesis => simp [traverseLeaves, patterns, bodyHypothesis]
  | slash init last initHypothesis _ => simp [traverseLeaves, patterns, heads, initHypothesis]
  | cons alternative rest alternativeHypothesis restHypothesis =>
      simp [traverseLeaves, patterns, alternativeHypothesis, restHypothesis]
  | _ part inductionHypothesis => exact inductionHypothesis

/-- The leaves of a name in a pattern of a tree are leaves of the tree. -/
theorem fringe_subset_of_mem_pattern
    {name : Name}
    {pattern : Pattern}
    {shape : Shape}
    {node : Node shape}
    (member : name ∈ pattern)
    (listed : pattern ∈ node.patterns) :
    name.fringe ⊆ node.fringe := by
  induction node generalizing pattern with
  | literal _ | star =>
      rw [List.mem_singleton.1 listed] at member
      rw [List.mem_singleton.1 member]
      exact List.Subset.refl _
  | scope head body _ bodyHypothesis =>
      obtain ⟨names, rfl, below⟩ := mem_patterns_scope_iff.1 listed
      rcases List.mem_cons.1 member with rfl | member
      · exact List.subset_append_left _ _
      · rcases below with rfl | below
        · cases member
        · exact List.subset_append_of_subset_right _ (bodyHypothesis member below)
  | slash init last initHypothesis _ =>
      obtain ⟨names, front, rfl⟩ := List.mem_map.1 listed
      rcases List.mem_append.1 member with member | member
      · exact List.subset_append_of_subset_left _ (initHypothesis member front)
      · rw [List.mem_singleton.1 member]
        exact List.subset_append_of_subset_right _ (Field.fringe_head_subset last)
  | cons alternative rest alternativeHypothesis restHypothesis =>
      rcases List.mem_append.1 listed with listed | listed
      · exact List.subset_append_of_subset_left _ (alternativeHypothesis member listed)
      · exact List.subset_append_of_subset_right _ (restHypothesis member listed)
  | _ part inductionHypothesis => exact inductionHypothesis member listed

theorem text_mem_words_of_mem_pattern
    {word : Word}
    {pattern : Pattern}
    {shape : Shape}
    {node : Node shape}
    (member : .ofWord word ∈ pattern)
    (listed : pattern ∈ node.patterns) :
    word.text ∈ node.words := by
  match word with
  | .literal text =>
      exact mem_words_iff.2 (fringe_subset_of_mem_pattern member listed (List.mem_singleton_self _))

/-! ## Trees -/

/-- A folder that checks each new word gives the renamed tree, if all new words are valid. -/
theorem run_ofLeaves_ofText
    {shape : Shape}
    {node : Node shape}
    (valid : ∀ text ∈ node.words, ValidWord (respell text)) :
    (Folder.ofLeaves (fun word => Word.ofText (respell word.text)) pure).run node
      = .ok (node.mapWords respell) := by
  have checked : ∀ leaf ∈ node.fringe, ∀ text, leaf = .ofWord (.literal text) →
      ValidWord (respell text) := by
    rintro leaf member text rfl
    exact valid text (mem_words_iff.2 member)
  clear valid
  rw [mapWords, Folder.run_ofLeaves, Folder.run_ofLeaves]
  induction node with
  | literal text =>
      exact Word.ofText_eq_ok_iff.2 ⟨checked _ (List.mem_singleton_self _) text rfl, rfl⟩
  | star => rfl
  | scope name body nameHypothesis bodyHypothesis =>
      rw [fringe, List.forall_mem_append] at checked
      rw [traverseLeaves, nameHypothesis checked.1, bodyHypothesis checked.2]
      rfl
  | slash init last initHypothesis lastHypothesis =>
      rw [fringe, List.forall_mem_append] at checked
      rw [traverseLeaves, initHypothesis checked.1, lastHypothesis checked.2]
      rfl
  | cons alternative rest alternativeHypothesis restHypothesis =>
      rw [fringe, List.forall_mem_append] at checked
      rw [traverseLeaves, alternativeHypothesis checked.1, restHypothesis checked.2]
      rfl
  | _ part inductionHypothesis =>
      rw [traverseLeaves, inductionHypothesis checked]
      rfl

theorem selects_mapWords_of_selects
    {shape : Shape}
    {node : Node shape}
    {path : Path}
    (selected : node.selects path = true) :
    (node.mapWords respell).selects (path.map respell) = true := by
  rw [selects_iff_exists_accepts] at selected ⊢
  obtain ⟨pattern, listed, accepted⟩ := selected
  refine ⟨pattern.map (mapWords respell), ?_, ?_⟩
  · rw [patterns_mapWords]
    exact List.mem_map_of_mem listed
  · obtain ⟨sameLength, pairwise⟩ := Pattern.accepts_iff_zip.1 accepted
    rw [Pattern.accepts_map_mapWords_iff]
    exact ⟨sameLength, fun pair member => Name.accepts_mapWords (pairwise pair member)⟩

theorem selects_of_selects_mapWords
    {shape : Shape}
    {node : Node shape}
    {path : Path}
    (apart : Set.InjOn respell {text | text ∈ node.words ∨ text ∈ path})
    (selected : (node.mapWords respell).selects (path.map respell) = true) :
    node.selects path = true := by
  rw [selects_iff_exists_accepts] at selected ⊢
  obtain ⟨renamed, inRenamed, accepted⟩ := selected
  rw [patterns_mapWords] at inRenamed
  obtain ⟨pattern, listed, rfl⟩ := List.mem_map.1 inRenamed
  obtain ⟨sameLength, pairwise⟩ := Pattern.accepts_map_mapWords_iff.1 accepted
  refine ⟨pattern, listed, Pattern.accepts_iff_zip.2 ⟨sameLength, ?_⟩⟩
  rintro ⟨name, segment⟩ member
  obtain ⟨nameMember, segmentMember⟩ := List.of_mem_zip member
  apply Name.accepts_of_accepts_mapWords _ (pairwise _ member)
  -- The renaming is known to be injective here, since the name is a word of the tree.
  rintro word rfl sameSpelling
  have wordMember := text_mem_words_of_mem_pattern nameMember listed
  exact apart (.inl wordMember) (.inr segmentMember) sameSpelling

/-- Renaming the words of a tree and the segments of a path alike keeps a path selected. It also
keeps a path from being selected, if no two of these words and segments are given one name. If all
new words are valid, the renamed tree is what a folder with a checked word for each word gives. -/
theorem selects_mapWords
    {shape : Shape}
    (node : Node shape)
    (respell : String → String) :
    ((∀ text ∈ node.words, ValidWord (respell text)) →
        (Folder.ofLeaves (fun word => Word.ofText (respell word.text)) pure).run node
          = .ok (node.mapWords respell))
      ∧ ∀ path : Path,
          (node.selects path = true → (node.mapWords respell).selects (path.map respell) = true)
            ∧ (Set.InjOn respell {text | text ∈ node.words ∨ text ∈ path} →
                (node.mapWords respell).selects (path.map respell) = node.selects path) := by
  refine ⟨run_ofLeaves_ofText, ?_⟩
  intro path
  refine ⟨selects_mapWords_of_selects, ?_⟩
  intro apart
  rw [Bool.eq_iff_iff]
  exact ⟨selects_of_selects_mapWords apart, selects_mapWords_of_selects⟩

/-- A segment that a wildcard takes need not be a valid word, under its old name or its new one. -/
theorem selects_mapWords_wildcard_in_chain :
    (Folder.ofLeaves (fun word => Word.ofText (word.text ++ "c")) pure).run
          (.slash (.ofField (.ofName (.ofWildcard .star))) (.ofName (.ofWord (.literal "b"))))
        = .ok (mapWords (· ++ "c")
            (.slash (.ofField (.ofName (.ofWildcard .star))) (.ofName (.ofWord (.literal "b")))))
      ∧ (mapWords (· ++ "c")
            (.slash (.ofField (.ofName (.ofWildcard .star))) (.ofName (.ofWord (.literal "b"))))).selects
          ["*c", "bc"] = true
      ∧ (mapWords (· ++ "c")
            (.slash (.ofField (.ofName (.ofWildcard .star))) (.ofName (.ofWord (.literal "b"))))).selects
          ["bc", "*c"] = false := by
  refine ⟨?_, ?_, ?_⟩
  · apply (selects_mapWords _ (· ++ "c")).1
    intro text member
    obtain rfl : text = "b" := by simpa [fringe] using mem_words_iff.1 member
    decide
  · exact ((selects_mapWords _ (· ++ "c")).2 ["*", "b"]).1 (by decide)
  · have apart : Set.InjOn (· ++ "c") {text | text ∈ words (.slash
          (.ofField (.ofName (.ofWildcard .star))) (.ofName (.ofWord (.literal "b"))))
        ∨ text ∈ ["b", "*"]} := by
      intro left _ right _ same
      simpa using same
    exact ((selects_mapWords _ (· ++ "c")).2 ["b", "*"]).2 apart

end Node

end FieldSelection
