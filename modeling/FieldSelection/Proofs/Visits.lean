import FieldSelection.Proofs.Node.Visiting
import FieldSelection.Proofs.Verdict
import Mathlib.Algebra.Ring.Nat

/-!
Contract: what visitors report about the tree of a text, told from the tokens of the text.

Owns:
- the leaves of a tree as the names among its tokens;
- `Node.Tally`, the numbers of visits to the nodes of each kind against the numbers of
  tokens of each kind.

Does not own: the order in which nodes are visited (`FieldSelection.Proofs.Node.Visiting`).

A chain is visited before its first steps, and its slash is written after them. So the
nodes and the tokens of a tree come in different orders, and only their numbers and
the order of the leaves agree.
-/

set_option autoImplicit false

namespace FieldSelection

/-- Whether a token is a name: a word or the wildcard. -/
def Token.isName : Token → Bool
  | .word _ => true
  | .wildcard => true
  | _ => false

/-- A visitor of the leaves meets the names in the order in which they are written. -/
theorem Node.leaves_eq_filter
    {shape : Shape}
    (node : Node shape) :
    node.leaves = node.tokens.filter Token.isName := by
  rw [leaves, Recorder.leaves_eq_collecting, recorded_collecting]
  induction node with
  | literal text => rfl
  | star => rfl
  | scope name body nameHypothesis bodyHypothesis =>
      simp [visited, tokens, Token.isName, nameHypothesis, bodyHypothesis]
  | slash init last initHypothesis lastHypothesis =>
      simp [visited, tokens, Token.isName, initHypothesis, lastHypothesis]
  | cons alternative rest alternativeHypothesis restHypothesis =>
      rw [rest.visited_eq_cons_tail] at restHypothesis
      simp [visited, tokens, Token.isName, alternativeHypothesis, ← restHypothesis]
  | _ _ inductionHypothesis => exact inductionHypothesis

/-- How many nodes are visited, against how many tokens are written. A list is the whole selection
or a body, and it has one more alternative than it has commas of its own. -/
structure Node.Tally {shape : Shape} (node : Node shape) : Prop where
  chains : node.visited.countP (·.shape = .chain) = node.tokens.count .slash
  opened : node.visited.countP (·.shape = .subSelection) = node.tokens.count .openParen
  closed : node.visited.countP (·.shape = .subSelection) = node.tokens.count .closeParen
  lists : node.visited.countP (·.shape = .selection)
    = node.visited.countP (·.shape = .subSelection) + if shape = .selection then 1 else 0
  alternatives :
    ((node.visited.filter (·.shape = .selection)).map (·.node.alternatives.length)).sum
      = node.visited.countP (·.shape = .selection) + node.tokens.count .comma

theorem Node.tally
    {shape : Shape}
    (node : Node shape) :
    node.Tally := by
  induction node with
  | literal text => constructor <;> simp [visited, tokens]
  | star => constructor <;> simp [visited, tokens]
  | scope name body nameHypothesis bodyHypothesis =>
      obtain ⟨nameChains, nameOpened, nameClosed, nameLists, nameAlternatives⟩ := nameHypothesis
      obtain ⟨bodyChains, bodyOpened, bodyClosed, bodyLists, bodyAlternatives⟩ := bodyHypothesis
      constructor <;> simp [visited, tokens] at * <;> omega
  | slash init last initHypothesis lastHypothesis =>
      obtain ⟨initChains, initOpened, initClosed, initLists, initAlternatives⟩ := initHypothesis
      obtain ⟨lastChains, lastOpened, lastClosed, lastLists, lastAlternatives⟩ := lastHypothesis
      constructor <;> simp [visited, tokens] at * <;> omega
  | only alternative inductionHypothesis =>
      obtain ⟨chains, opened, closed, lists, alternatives⟩ := inductionHypothesis
      constructor <;> simp [visited, tokens, Node.alternatives] at * <;> omega
  | cons alternative rest alternativeHypothesis restHypothesis =>
      -- The visit to the rest of the list is in its own tally, and not in that of the whole list.
      obtain ⟨chains, opened, closed, lists, alternatives⟩ := alternativeHypothesis
      obtain ⟨restChains, restOpened, restClosed, restLists, restAlternatives⟩ := restHypothesis
      rw [rest.visited_eq_cons_tail] at restChains restOpened restClosed restLists restAlternatives
      constructor <;> simp [visited, tokens, Node.alternatives] at * <;> omega
  | _ _ inductionHypothesis =>
      obtain ⟨chains, opened, closed, lists, alternatives⟩ := inductionHypothesis
      constructor <;> simp [visited, tokens] at * <;> omega

/-- The leaves of the tree of a text are visited in the order of the names in the text. There are
as many visits to chains as slashes, to sub-selections as opening and as closing parentheses, one
more to lists, and all lists together have one alternative more for each comma than there are
lists. -/
theorem visits_of_parse_eq_ok
    {text : String}
    {selection : Selection}
    (parsed : parse text = .ok selection) :
    selection.leaves = (Token.ofText text).filter Token.isName
      ∧ (selection.visitsTo .chain).length = (Token.ofText text).count .slash
      ∧ (selection.visitsTo .subSelection).length = (Token.ofText text).count .openParen
      ∧ (selection.visitsTo .subSelection).length = (Token.ofText text).count .closeParen
      ∧ (selection.visitsTo .selection).length = (selection.visitsTo .subSelection).length + 1
      ∧ selection.listLengths.length = (selection.visitsTo .selection).length
      ∧ selection.listLengths.sum
          = (selection.visitsTo .selection).length + (Token.ofText text).count .comma := by
  have tally := selection.tally
  have counted : ∀ target, (selection.visitsTo target).length
      = selection.visited.countP (·.shape = target) := by
    intro target
    rw [Node.visitsTo_eq_filter, List.countP_eq_length_filter]
  simp only [parse_eq_ok_iff_tokens.1 parsed, counted]
  refine ⟨selection.leaves_eq_filter, tally.chains, tally.opened, tally.closed, tally.lists, ?_, ?_⟩
  · rw [Node.listLengths_eq_map, List.length_map, List.countP_eq_length_filter]
  · rw [Node.listLengths_eq_map]
    exact tally.alternatives

theorem visits_of_parse_eq_ok_body_with_chain :
    ∃ selection,
      parse "é(b/*,c),d" = .ok selection
        ∧ selection.leaves = [.word "é", .word "b", .wildcard, .word "c", .word "d"]
        ∧ (selection.visitsTo .chain).length = 1
        ∧ (selection.visitsTo .subSelection).length = 1
        ∧ (selection.visitsTo .selection).length = 2
        ∧ selection.listLengths.sum = 4 := by
  have parsed : parse "é(b/*,c),d" = .ok
      (.cons
        (.ofField (.ofSubSelection (.scope (.ofWord (.literal "é"))
          (.cons
            (.ofChain (.slash (.ofField (.ofName (.ofWord (.literal "b"))))
              (.ofName (.ofWildcard .star))))
            (.only (.ofField (.ofName (.ofWord (.literal "c")))))))))
        (.only (.ofField (.ofName (.ofWord (.literal "d")))))) :=
    parse_eq_ok_iff_tokens.2 (by decide)
  obtain ⟨leaves, chains, opened, -, lists, -, alternatives⟩ := visits_of_parse_eq_ok parsed
  rw [opened] at lists
  rw [lists] at alternatives
  exact ⟨_, parsed, leaves, chains, opened, lists, alternatives⟩

end FieldSelection
