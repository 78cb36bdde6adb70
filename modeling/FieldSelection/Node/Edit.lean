import FieldSelection.Node.Traversal
import FieldSelection.Node.Word

/-!
Contract: editing a tree by rules for some of its shapes.

Owns:
- `EditRules`, a choice of rules;
- `EditRules.folder`, the folder that applies them and keeps a trace of every
  call, and `Node.edit`, its run over a tree.

Does not own: the rebuilding of what no rule concerns (`rebuild`).

A word is only ever replaced through `Word.ofText`: where that refuses the new
text, the old word stays as it was and the first refusal is remembered. So a tree
of valid words becomes a tree of valid words.
-/

set_option autoImplicit false

namespace FieldSelection

structure EditRules where
  /-- Put the alternatives of each list in reverse order. -/
  reverseAlternatives : Bool := false
  /-- Keep the first alternative of each list; the reversal goes before this rule. -/
  firstAlternative : Bool := false
  /-- Replace a selector that is a chain by its last step. -/
  lastStep : Bool := false
  /-- Add a wildcard step to each chain. -/
  wildcardStep : Bool := false
  /-- Replace a field with a sub-selection by the bare name. -/
  bareNames : Bool := false
  /-- Replace the body of each sub-selection by a wildcard. -/
  wildcardBodies : Bool := false
  /-- Replace each word by a wildcard. -/
  wordsToWildcards : Bool := false
  /-- Replace each wildcard by the word `any`. -/
  wildcardsToWords : Bool := false
  /-- The new text of a word. -/
  rename : String → String := id
  /-- Put the ASCII letters of each word in upper case, after it was renamed. -/
  upperCase : Bool := false

/-- What an edit has met so far. -/
structure EditState where
  /-- The shape of each node that was handed to the folder, in order. -/
  trace : Array Shape := #[]
  /-- The first refusal of a new word. -/
  refusal : Option SyntaxError := none

namespace EditRules

/-- The text that the rules ask for in place of a word. Only ASCII letters have an upper case here. -/
def respell (rules : EditRules) (text : String) : String :=
  let renamed := rules.rename text
  if rules.upperCase then renamed.map Char.toUpper else renamed

/-- The alternatives of a folded list that the rules keep, in the order they ask for. -/
def arrange (rules : EditRules) (selection : Selection) : Selection :=
  if rules.reverseAlternatives then
    selection.withAlternatives selection.alternatives.reverse
  else if rules.firstAlternative then
    selection.withAlternatives (selection.alternatives.take 1)
  else
    selection

/-- Replaces a word by a checked one, or keeps it and remembers why. -/
def replaceWord (rules : EditRules) (word : Word) : StateM EditState Word :=
  match Word.ofText (rules.respell word.text) with
  | .ok replacement => pure replacement
  | .error refusal => do
    modify fun state => { state with refusal := state.refusal.or (some refusal) }
    pure word

/-- Applies the rule for a shape, or rebuilds the node. -/
def rule (rules : EditRules) : Folder (StateM EditState)
  | .selection, selection, fold => rules.arrange <$> rebuild .selection selection fold
  | .selector, .ofChain (.slash init last), fold =>
    if rules.lastStep then
      .ofField <$> fold last Node.lastOfChain_lt
    else
      rebuild .selector (.ofChain (.slash init last)) fold
  | .chain, chain, fold => do
    let folded ← rebuild .chain chain fold
    if rules.wildcardStep then
      pure (.slash (.ofChain folded) (.ofName (.ofWildcard .star)))
    else
      pure folded
  | .field, .ofSubSelection (.scope name body), fold =>
    if rules.bareNames then
      .ofName <$> fold name Node.nameOfSubSelection_lt
    else
      rebuild .field (.ofSubSelection (.scope name body)) fold
  | .subSelection, .scope name body, fold =>
    if rules.wildcardBodies then do
      let folded ← fold name Node.scopeName_lt
      pure (.scope folded (.only (.ofField (.ofName (.ofWildcard .star)))))
    else
      rebuild .subSelection (.scope name body) fold
  | .name, .ofWord word, fold =>
    if rules.wordsToWildcards then
      pure (.ofWildcard .star)
    else
      rebuild .name (.ofWord word) fold
  | .name, .ofWildcard wildcard, fold =>
    if rules.wildcardsToWords then
      pure (.ofWord (.literal "any"))
    else
      rebuild .name (.ofWildcard wildcard) fold
  | .word, word, _ => rules.replaceWord word
  | shape, node, fold => rebuild shape node fold

/-- The folder of the rules, which first notes each node that it is handed. -/
def folder (rules : EditRules) : Folder (StateM EditState)
  | shape, node, fold => do
    modify fun state => { state with trace := state.trace.push shape }
    rules.rule shape node fold

end EditRules

/-- Edits a tree by the rules. -/
def Node.edit
    {shape : Shape}
    (node : Node shape)
    (rules : EditRules) :
    Node shape × EditState :=
  (rules.folder.run node).run {}

end FieldSelection
