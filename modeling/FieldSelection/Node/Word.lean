import FieldSelection.Node
import FieldSelection.SyntaxError

/-!
Contract: which texts are words.

Owns:
- `ValidWord`, the texts that can be written as a word: not empty, and without
  reserved characters;
- `Word.ofText`, the checked way to make a word, and its two errors;
- `Node.WordsValid`, the trees all of whose words are valid.

Does not own: the reading of words out of longer texts.

Main statement: `Word.ofText` gives a word for the valid texts and for no others.
-/

set_option autoImplicit false

namespace FieldSelection

/-- A text that can be written as one word. -/
def ValidWord (text : String) : Prop :=
  text ≠ "" ∧ ∀ character ∈ text.toList, isWordCharacter character = true

instance (text : String) : Decidable (ValidWord text) :=
  @instDecidableAnd _ _ inferInstance (List.decidableBAll _ text.toList)

/-- Makes a word of a valid text; else names the missing text, or the first reserved character. -/
def Word.ofText (text : String) : Except SyntaxError Word :=
  if text = "" then
    .error ⟨0, .fieldName, .endOfInput⟩
  else
    match text.toList.find? (!isWordCharacter ·) with
    | none => .ok (.literal text)
    | some stop =>
      let before := String.ofList (text.toList.takeWhile isWordCharacter)
      .error ⟨before.utf8ByteSize, .nameCharacter, .character stop⟩

/-- All words of a tree are valid. -/
def Node.WordsValid : {shape : Shape} → Node shape → Prop
  | _, .literal text => ValidWord text
  | _, .star => True
  | _, .ofWord word => word.WordsValid
  | _, .ofWildcard wildcard => wildcard.WordsValid
  | _, .ofName name => name.WordsValid
  | _, .ofSubSelection subSelection => subSelection.WordsValid
  | _, .scope name body => name.WordsValid ∧ body.WordsValid
  | _, .ofField field => field.WordsValid
  | _, .ofChain chain => chain.WordsValid
  | _, .slash init last => init.WordsValid ∧ last.WordsValid
  | _, .only alternative => alternative.WordsValid
  | _, .cons alternative rest => alternative.WordsValid ∧ rest.WordsValid

theorem Word.ofText_eq_ok_iff
    {text : String}
    {word : Word} :
    Word.ofText text = .ok word ↔ ValidWord text ∧ word = .literal text := by
  unfold Word.ofText ValidWord
  by_cases empty : text = ""
  · simp [empty]
  · rw [if_neg empty]
    split
    · rename_i allWord
      have word : ∀ character ∈ text.toList, isWordCharacter character = true := by
        simpa using allWord
      simp only [Except.ok.injEq]
      exact ⟨fun same => ⟨⟨empty, word⟩, same.symm⟩, fun valid => valid.2.symm⟩
    · rename_i stop stopped
      simp only [reduceCtorEq, false_iff]
      intro valid
      have reserved := List.find?_some stopped
      simp [valid.1.2 stop (List.mem_of_find?_eq_some stopped)] at reserved

/-- A checked word spells the text that it was made of. -/
theorem Word.text_of_ofText
    {text : String}
    {word : Word}
    (made : Word.ofText text = .ok word) :
    word.text = text := by
  rw [(Word.ofText_eq_ok_iff.1 made).2]
  rfl

end FieldSelection
