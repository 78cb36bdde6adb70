import FieldSelection.Proofs.Token.LongestMatch
import FieldSelection.Proofs.Verdict
import Mathlib.Data.List.Nodup

/-!
Contract: the check of words, the lexer and the parser agree on what a word is.

Owns:
- the texts that are read as one word, as the texts that the check passes;
- the place at which the check stops, as the first token that is not a word;
- the offsets of lexemes as an increasing sequence.

Does not own: the check itself (`FieldSelection.Node.Word`), or which lexemes a text has
(`FieldSelection.Proofs.Token.LongestMatch`).

The check goes through the characters of a text on its own, and never asks for its tokens.
It stops behind the longest front of word characters, which is where the first word token ends.
-/

set_option autoImplicit false

namespace FieldSelection

/-! ## Texts that are one word -/

theorem Token.ofText_eq_word_iff
    {text : String} :
    Token.ofText text = [.word text] ↔ ValidWord text := by
  rw [Token.ofText_eq_iff]
  constructor
  · intro lexed
    exact lexed.1.valid (.word text) (List.mem_singleton_self _)
  · intro valid
    refine ⟨⟨?_, List.isChain_singleton _⟩, ?_⟩
    · intro token member
      rw [List.mem_singleton.1 member]
      exact valid
    · rw [Token.textOf_singleton]
      rfl

theorem Word.ofText_eq_literal_iff
    {text : String} :
    Word.ofText text = .ok (.literal text) ↔ Token.ofText text = [.word text] := by
  rw [Token.ofText_eq_word_iff, Word.ofText_eq_ok_iff]
  exact and_iff_left rfl

theorem Lexeme.ofText?_eq_word_iff
    {text : String} :
    Lexeme.ofText? text = some [⟨.word text, 0⟩] ↔ Token.ofText text = [.word text] := by
  rw [Lexeme.ofText?_eq_some, Option.some.injEq]
  show Lexeme.layOut 0 (Token.ofText text) = Lexeme.layOut 0 [.word text] ↔ _
  constructor
  · intro laid
    have carried := congrArg (List.map Lexeme.token) laid
    rw [Lexeme.map_token_layOut, Lexeme.map_token_layOut] at carried
    exact carried
  · intro lexed
    rw [lexed]

theorem parse_eq_word_iff
    {text : String} :
    parse text = .ok (.only (.ofField (.ofName (.ofWord (.literal text)))))
      ↔ Token.ofText text = [.word text] :=
  parse_eq_ok_iff_tokens

/-! ## Where the check stops -/

/-- The check stops at the first reserved character, and says which one it is. -/
theorem Word.ofText_eq_error_of_reserved
    {text before : String}
    {stop : Char}
    {after : List Char}
    (split : text.toList = before.toList ++ stop :: after)
    (word : ∀ character ∈ before.toList, isWordCharacter character = true)
    (reserved : isWordCharacter stop = false) :
    Word.ofText text = .error ⟨before.utf8ByteSize, .nameCharacter, .character stop⟩ := by
  have nonempty : text ≠ "" := by
    intro empty
    rw [empty] at split
    simp at split
  have found : text.toList.find? (!isWordCharacter ·) = some stop := by
    rw [split, List.find?_append, List.find?_eq_none.2 (by simpa using word),
      List.find?_cons_of_pos (by rw [reserved]; rfl)]
    rfl
  have passed : text.toList.takeWhile isWordCharacter = before.toList := by
    rw [split, List.takeWhile_append_of_pos word,
      List.takeWhile_cons_of_neg (by rw [reserved]; decide), List.append_nil]
  unfold Word.ofText
  rw [if_neg nonempty, found, passed]
  simp only [String.ofList_toList]

/-- No token, or only a word. -/
def Token.WordAtMost (tokens : List Token) : Prop :=
  tokens = [] ∨ ∃ word, tokens = [.word word]

/-- The tokens of a text that is not one word: a word at most, and then one that is none. -/
theorem Token.exists_first_punctuation
    {text : String}
    (nonempty : text ≠ "")
    (invalid : ¬ValidWord text) :
    ∃ front stop later, Token.ofText text = front ++ stop :: later
      ∧ stop.isWord = false ∧ Token.WordAtMost front := by
  have canonical := Token.canonical_ofText text
  have spelled := Token.textOf_ofText text
  cases lexed : Token.ofText text with
  | nil =>
      rw [lexed] at spelled
      exact absurd spelled.symm nonempty
  | cons first later =>
      cases kind : first.isWord with
      | false => exact ⟨[], first, later, rfl, kind, .inl rfl⟩
      | true =>
          cases first with
          | word word =>
              rw [lexed] at canonical spelled
              cases later with
              | nil =>
                  -- A word alone is the whole text.
                  rw [Token.textOf_singleton] at spelled
                  rw [← spelled] at invalid
                  exact absurd (canonical.valid (.word word) List.mem_cons_self) invalid
              | cons stop others =>
                  have apart := (List.isChain_cons_cons.1 canonical.apart).1
                  exact ⟨[.word word], stop, others, rfl, apart rfl, .inr ⟨word, rfl⟩⟩
          | _ => cases kind

/-- The check stops behind the word that a text begins with, if it begins with one. -/
theorem Word.exists_ofText_eq_error
    {text : String}
    {front later : List Token}
    {stop : Token}
    (lexed : Token.ofText text = front ++ stop :: later)
    (noWord : stop.isWord = false)
    (wordAtMost : Token.WordAtMost front) :
    ∃ character, stop.spelling.toList = [character]
      ∧ Word.ofText text
          = .error ⟨(Token.textOf front).utf8ByteSize, .nameCharacter, .character character⟩ := by
  obtain ⟨character, reserved, spelled⟩ := Token.spelling_of_isWord_eq_false noWord
  refine ⟨character, spelled, ?_⟩
  have split : text.toList
      = (Token.textOf front).toList ++ character :: (Token.textOf later).toList := by
    have whole := Token.textOf_ofText text
    rw [lexed, Token.textOf_append, Token.textOf_cons] at whole
    rw [← whole, String.toList_append, String.toList_append, spelled]
    rfl
  apply Word.ofText_eq_error_of_reserved split _ reserved
  rcases wordAtMost with none | ⟨word, one⟩
  · rw [none]
    intro letter member
    cases member
  · have canonical := Token.canonical_ofText text
    have valid : ValidWord word := canonical.valid (.word word) (by simp [lexed, one])
    rw [one, Token.textOf_singleton]
    exact valid.2

/-- A token that is one character is described as the character is. -/
theorem Token.describe_eq_text_of_spelling
    {token : Token}
    {character : Char}
    (noWord : token.isWord = false)
    (spelled : token.spelling.toList = [character]) :
    (Found.character character).text = token.describe := by
  cases token with
  | word text => cases noWord
  | _ =>
      obtain rfl := (List.cons.inj spelled).1
      rfl

/-! ## The lexeme at an offset -/

namespace Lexeme

theorem le_offset_of_mem_layOut
    {tokens : List Token}
    {offset : Nat}
    {lexeme : Lexeme}
    (member : lexeme ∈ layOut offset tokens) :
    offset ≤ lexeme.offset := by
  induction tokens generalizing offset with
  | nil => cases member
  | cons token later inductionHypothesis =>
      rw [layOut_cons] at member
      rcases List.mem_cons.1 member with rfl | member
      · exact Nat.le_refl _
      · have bound := inductionHypothesis member
        omega

/-- No token of a text is empty, so that each starts behind the ones before it. -/
theorem pairwise_offset_layOut
    {tokens : List Token}
    (valid : ∀ token ∈ tokens, token.Valid)
    (offset : Nat) :
    (layOut offset tokens).Pairwise fun left right => left.offset < right.offset := by
  induction tokens generalizing offset with
  | nil => exact List.Pairwise.nil
  | cons token later inductionHypothesis =>
      obtain ⟨tokenValid, laterValid⟩ := List.forall_mem_cons.1 valid
      rw [layOut_cons, List.pairwise_cons]
      refine ⟨?_, inductionHypothesis laterValid _⟩
      intro lexeme member
      have behind := le_offset_of_mem_layOut member
      have positive : 0 < token.byteLength := by
        apply Nat.pos_of_ne_zero
        intro empty
        apply Token.spelling_toList_ne_nil tokenValid
        rw [String.toList_eq_nil_iff]
        exact String.utf8ByteSize_eq_zero_iff.1 empty
      show offset < lexeme.offset
      omega

/-- A token of a text starts where the text of those before it ends. -/
theorem mem_lexemes_of_ofText
    {text : String}
    {front later : List Token}
    {token : Token}
    (lexed : Token.ofText text = front ++ token :: later) :
    ⟨token, (Token.textOf front).utf8ByteSize⟩ ∈ (TokenStream.ofText text).lexemes := by
  show _ ∈ layOut 0 (Token.ofText text)
  rw [lexed, layOut_append, layOut_cons, Nat.zero_add]
  exact List.mem_append_right _ List.mem_cons_self

/-- The first punctuation of a text stands behind its first token if that is a word, or is itself
the first token. -/
theorem exists_first_of_wordAtMost
    {text : String}
    {front later : List Token}
    {stop : Token}
    (lexed : Token.ofText text = front ++ stop :: later)
    (noWord : stop.isWord = false)
    (wordAtMost : Token.WordAtMost front) :
    ∃ first others, (TokenStream.ofText text).lexemes = first :: others
      ∧ (Token.textOf front).utf8ByteSize
          = if first.token.isWord = true then first.token.byteLength else 0 := by
  have laid : (TokenStream.ofText text).lexemes = layOut 0 (front ++ stop :: later) :=
    congrArg (layOut 0) lexed
  rcases wordAtMost with none | ⟨word, one⟩
  · rw [none, List.nil_append, layOut_cons] at laid
    refine ⟨_, _, laid, ?_⟩
    rw [none, if_neg (by rw [noWord]; decide)]
    rfl
  · rw [one, List.singleton_append, layOut_cons] at laid
    refine ⟨_, _, laid, ?_⟩
    rw [one, Token.textOf_singleton]
    rfl

/-- A text has one lexeme at an offset, if any. -/
theorem eq_of_offset_eq
    {text : String}
    {left right : Lexeme}
    (leftMember : left ∈ (TokenStream.ofText text).lexemes)
    (rightMember : right ∈ (TokenStream.ofText text).lexemes)
    (same : left.offset = right.offset) :
    left = right := by
  have increasing := pairwise_offset_layOut (Token.canonical_ofText text).valid 0
  have nodup : ((TokenStream.ofText text).lexemes.map Lexeme.offset).Nodup := by
    unfold List.Nodup
    rw [List.pairwise_map]
    exact increasing.imp Nat.ne_of_lt
  exact List.inj_on_of_nodup_map nodup leftMember rightMember same

end Lexeme

/-- The check passes a text as the word that it spells, or not at all. It passes exactly the texts
that are read as one word, from their first byte to their last, and these are the texts that are
parsed as nothing but this word. If it stops in a text that
is not empty, then behind the first token if this is a word, and else at once; it reports what the
lexer has at that place. -/
theorem Word.ofText_agrees_with_lexing
    (text : String) :
    ((∃ word, Word.ofText text = .ok word) ↔ Word.ofText text = .ok (.literal text))
      ∧ (Word.ofText text = .ok (.literal text) ↔ Lexeme.ofText? text = some [⟨.word text, 0⟩])
      ∧ (Lexeme.ofText? text = some [⟨.word text, 0⟩]
          ↔ parse text = .ok (.only (.ofField (.ofName (.ofWord (.literal text))))))
      ∧ (text ≠ "" → ∀ error, Word.ofText text = .error error →
          ∃ first later, Lexeme.ofText? text = some (first :: later)
            ∧ error.offset = (if first.token.isWord = true then first.token.byteLength else 0)
            ∧ ∃ lexeme ∈ first :: later,
                (lexeme.offset = error.offset ∧ error.found.text = lexeme.token.describe)
                  ∧ ∀ other ∈ first :: later, other.offset = error.offset → other = lexeme) := by
  refine ⟨?_, ?_, ?_, ?_⟩
  · constructor
    · intro made
      obtain ⟨word, made⟩ := made
      obtain ⟨valid, rfl⟩ := Word.ofText_eq_ok_iff.1 made
      exact made
    · intro made
      exact ⟨_, made⟩
  · rw [Word.ofText_eq_literal_iff, Lexeme.ofText?_eq_word_iff]
  · rw [Lexeme.ofText?_eq_word_iff, parse_eq_word_iff]
  · intro nonempty error failed
    have invalid : ¬ValidWord text := by
      intro valid
      rw [Word.ofText_eq_ok_iff.2 ⟨valid, rfl⟩] at failed
      cases failed
    obtain ⟨front, stop, later, lexed, noWord, wordAtMost⟩ :=
      Token.exists_first_punctuation nonempty invalid
    obtain ⟨character, spelled, stopped⟩ :=
      Word.exists_ofText_eq_error lexed noWord wordAtMost
    obtain rfl := Except.error.inj (failed.symm.trans stopped)
    obtain ⟨first, others, listed, place⟩ :=
      Lexeme.exists_first_of_wordAtMost lexed noWord wordAtMost
    refine ⟨first, others, ?_, place, ?_⟩
    · rw [Lexeme.ofText?_eq_some, listed]
    · rw [← listed]
      have stopMember := Lexeme.mem_lexemes_of_ofText lexed
      refine ⟨_, stopMember, ⟨rfl, Token.describe_eq_text_of_spelling noWord spelled⟩, ?_⟩
      intro other member same
      exact Lexeme.eq_of_offset_eq member stopMember same

/-- The bytes of the first word are counted, and not its letters. -/
theorem Word.ofText_agrees_with_lexing_two_bytes :
    "é/*" ≠ "" ∧ Word.ofText "é/*" = .error ⟨2, .nameCharacter, .character '/'⟩
      ∧ ∃ first later, Lexeme.ofText? "é/*" = some (first :: later)
          ∧ 2 = (if first.token.isWord = true then first.token.byteLength else 0)
          ∧ ∃ lexeme ∈ first :: later,
              (lexeme.offset = 2 ∧ "`/`" = lexeme.token.describe)
                ∧ ∀ other ∈ first :: later, other.offset = 2 → other = lexeme := by
  have failed : Word.ofText "é/*" = .error ⟨2, .nameCharacter, .character '/'⟩ := by decide
  exact ⟨by decide, failed, (Word.ofText_agrees_with_lexing "é/*").2.2.2 (by decide) _ failed⟩

end FieldSelection
