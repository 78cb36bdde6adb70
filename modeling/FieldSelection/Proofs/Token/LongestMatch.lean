import FieldSelection.Proofs.Token.Lexing
import FieldSelection.Token.LongestMatch

/-!
Contract: reading a text from its front and cutting it into runs give the same lexemes.

Owns:
- the token at the front of a text that canonical tokens spell;
- `Lexeme.InPlace`, the lists of lexemes whose offsets add up;
- the agreement of `Lexeme.ofText?` with `TokenStream.ofText`.

Does not own: the text that tokens spell, or which lists of them are canonical
(`FieldSelection.Proofs.Token.Lexing`).

Main statement: every text is read to its end, and the lexemes read are the one way to
spell it with valid words that do not touch.
-/

set_option autoImplicit false

namespace FieldSelection

/-! ## The token at the front -/

namespace Token

/-- A text that does not begin with a word begins with no word character. -/
theorem head?_textOf_of_no_word
    {tokens : List Token}
    (noWord : ∀ token ∈ tokens.head?, token.isWord = false) :
    ∀ character ∈ (textOf tokens).toList.head?, isWordCharacter character = false := by
  cases tokens with
  | nil => simp
  | cons token rest =>
      obtain ⟨character, reserved, spelled⟩ :=
        spelling_of_isWord_eq_false (noWord token (by simp))
      simp [spelled, reserved]

/-- A word reaches as far as word characters do. -/
theorem wordAtFront?_append
    {word : String}
    {rest : List Char}
    (valid : ValidWord word)
    (stops : ∀ character ∈ rest.head?, isWordCharacter character = false) :
    wordAtFront? (word.toList ++ rest) = some (.word word, rest) := by
  have restRun : rest.takeWhile isWordCharacter = [] ∧ rest.dropWhile isWordCharacter = rest := by
    cases rest with
    | nil => simp
    | cons character others => simp [stops character (by simp)]
  unfold wordAtFront?
  rw [List.takeWhile_append_of_pos valid.2, List.dropWhile_append_of_pos valid.2, restRun.1,
    restRun.2, List.append_nil]
  cases letters : word.toList with
  | nil => exact absurd (String.toList_eq_nil_iff.1 letters) valid.1
  | cons first others =>
      show some (Token.word (String.ofList (first :: others)), rest) = some (.word word, rest)
      rw [← letters, String.ofList_toList]

/-- The first of canonical tokens is read, and the text of the others is left. -/
theorem atFront?_textOf_cons
    {token : Token}
    {rest : List Token}
    (canonical : Canonical (token :: rest)) :
    atFront? (textOf (token :: rest)).toList = some (token, (textOf rest).toList) := by
  have apart := (List.isChain_cons.1 canonical.apart).1
  rw [textOf_cons, String.toList_append]
  cases token with
  | word text =>
      have stops := head?_textOf_of_no_word fun next first => apart next first rfl
      have valid := canonical.valid (.word text) (by simp)
      rw [atFront?, spelling, wordAtFront?_append valid stops]
      rfl
  | _ => rfl

end Token

/-! ## All lexemes of a text -/

namespace Lexeme

/-- What canonical tokens spell is read to its end, each token at the distance that is left. -/
theorem gather?_textOf
    {size : Nat}
    {tokens : List Token}
    (canonical : Token.Canonical tokens)
    (within : (Token.textOf tokens).utf8ByteSize ≤ size) :
    gather? size (Token.textOf tokens).toList
      = some (layOut (size - (Token.textOf tokens).utf8ByteSize) tokens, []) := by
  induction tokens with
  | nil =>
      rw [gather?]
      rfl
  | cons token rest inductionHypothesis =>
      have nonempty := Token.spelling_toList_ne_nil (canonical.valid token (by simp))
      have shorter : (Token.textOf rest).toList.length
          < (Token.textOf (token :: rest)).toList.length := by
        have positive := List.length_pos_of_ne_nil nonempty
        rw [Token.textOf_cons, String.toList_append, List.length_append]
        omega
      have bytes : (Token.textOf (token :: rest)).utf8ByteSize
          = token.byteLength + (Token.textOf rest).utf8ByteSize := by
        rw [Token.textOf_cons, String.utf8ByteSize_append]
        rfl
      have restRead := inductionHypothesis canonical.of_cons (by omega)
      have restPlace : size - (Token.textOf (token :: rest)).utf8ByteSize + token.byteLength
          = size - (Token.textOf rest).utf8ByteSize := by
        omega
      rw [gather?, Token.atFront?_textOf_cons canonical, layOut_cons, restPlace]
      simp only [if_pos shorter, restRead, String.ofList_toList]
      rfl

/-- Every text is read to its end, as the lexemes that its runs make up. -/
theorem ofText?_eq_some
    (text : String) :
    ofText? text = some (TokenStream.ofText text).lexemes := by
  have read := gather?_textOf (Token.canonical_ofText text)
    (le_of_eq (congrArg String.utf8ByteSize (Token.textOf_ofText text)))
  rw [Token.textOf_ofText, Nat.sub_self] at read
  rw [ofText?, read]
  rfl

/-- Each lexeme stands where the text of those before it ends. -/
def InPlace (lexemes : List Lexeme) : Prop :=
  ∀ before lexeme after, lexemes = before ++ lexeme :: after →
    lexeme.offset = (Token.textOf (before.map Lexeme.token)).utf8ByteSize

theorem inPlace_layOut
    (tokens : List Token) :
    InPlace (layOut 0 tokens) := by
  intro before lexeme after laid
  have split : tokens = before.map Lexeme.token ++ lexeme.token :: after.map Lexeme.token := by
    rw [← map_token_layOut 0 tokens, laid, List.map_append, List.map_cons]
  rw [split, layOut_append, layOut_cons, Nat.zero_add] at laid
  have sameLength : (layOut 0 (before.map Lexeme.token)).length = before.length := by
    rw [← List.length_map Lexeme.token, map_token_layOut, List.length_map]
  have placed := (List.cons.inj (List.append_inj laid sameLength).2).1
  rw [← placed]

/-- Reading a text from its front gets to the end of every text. The lexemes read are those that
the parser is given; their tokens spell the text, each starts in bytes where those before it end,
every word is valid and no two words touch. Any other list of tokens of which the same is true is
read from the text that it spells. -/
theorem ofText?_lossless_and_canonical :
    (∀ text : String, ∃ lexemes,
        ofText? text = some lexemes
          ∧ TokenStream.ofText text = ⟨lexemes, text.utf8ByteSize⟩
          ∧ Token.textOf (lexemes.map Lexeme.token) = text
          ∧ InPlace lexemes
          ∧ Token.Canonical (lexemes.map Lexeme.token))
      ∧ ∀ tokens : List Token, Token.Canonical tokens → ∃ lexemes,
          ofText? (Token.textOf tokens) = some lexemes
            ∧ lexemes.map Lexeme.token = tokens
            ∧ InPlace lexemes := by
  constructor
  · intro text
    have tokens : (TokenStream.ofText text).lexemes.map Lexeme.token = Token.ofText text :=
      TokenStream.tokens_ofText text
    refine ⟨_, ofText?_eq_some text, rfl, ?_, inPlace_layOut _, ?_⟩
    · rw [tokens, Token.textOf_ofText]
    · rw [tokens]
      exact Token.canonical_ofText text
  · intro tokens canonical
    refine ⟨_, ofText?_eq_some _, ?_, inPlace_layOut _⟩
    exact (TokenStream.tokens_ofText _).trans (Token.ofText_textOf canonical)

/-- Wildcards may touch each other and words. -/
theorem ofText?_canonical_touching_wildcards :
    Token.Canonical [.word "é b", .wildcard, .wildcard, .word "c"]
      ∧ ∃ lexemes,
          ofText? "é b**c" = some lexemes
            ∧ lexemes.map Lexeme.token = [.word "é b", .wildcard, .wildcard, .word "c"]
            ∧ InPlace lexemes := by
  have canonical : Token.Canonical [.word "é b", .wildcard, .wildcard, .word "c"] := by
    have lexed : Token.ofText "é b**c" = [.word "é b", .wildcard, .wildcard, .word "c"] := by decide
    rw [← lexed]
    exact Token.canonical_ofText "é b**c"
  exact ⟨canonical, ofText?_lossless_and_canonical.2 _ canonical⟩

end Lexeme

end FieldSelection
