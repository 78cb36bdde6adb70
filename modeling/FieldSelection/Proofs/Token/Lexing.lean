import FieldSelection.Node.Word
import FieldSelection.Proofs.Token.Reading
import FieldSelection.Token.Lexer
import Mathlib.Data.List.SplitBy

/-!
Contract: the tokens of a text are the one way to spell it.

Owns:
- `Token.textOf`, the text that tokens spell one after another;
- `Token.Canonical`, the lists of tokens with valid words, no two of them neighbours;
- the equivalence of both with `Token.ofText`;
- the offsets at which tokens are laid out.

Does not own: which lists of tokens are the tokens of a tree.

Main statement: the tokens of a text are canonical and spell it, and no other
canonical list does.
-/

set_option autoImplicit false

namespace FieldSelection

namespace Token

def textOf (tokens : List Token) : String := String.join (tokens.map spelling)

@[simp] theorem textOf_nil : textOf [] = "" := rfl

@[simp] theorem textOf_cons
    (token : Token)
    (tokens : List Token) :
    textOf (token :: tokens) = token.spelling ++ textOf tokens := by
  simp [textOf]

theorem textOf_singleton
    (token : Token) :
    textOf [token] = token.spelling := by
  rw [textOf_cons, textOf_nil, String.append_empty]

@[simp] theorem textOf_append
    (front back : List Token) :
    textOf (front ++ back) = textOf front ++ textOf back := by
  simp [textOf]

def isWord : Token → Bool
  | .word _ => true
  | _ => false

/-- A word token is valid as its text is. -/
def Valid : Token → Prop
  | .word text => ValidWord text
  | _ => True

/-- Neighbours that are not both words, and so do not run into one another. -/
def Apart (left right : Token) : Prop := left.isWord = true → right.isWord = false

/-- Lists of tokens that a text can be cut into. -/
structure Canonical (tokens : List Token) : Prop where
  valid : ∀ token ∈ tokens, token.Valid
  apart : tokens.IsChain Apart

theorem Canonical.of_cons
    {token : Token}
    {rest : List Token}
    (canonical : Canonical (token :: rest)) :
    Canonical rest :=
  ⟨fun other member => canonical.valid other (List.mem_cons_of_mem token member),
    (List.isChain_cons.1 canonical.apart).2⟩

/-! ## Runs of characters -/

private abbrev Joined (left right : Char) : Prop :=
  (isWordCharacter left && isWordCharacter right) = true

private theorem wordCharacters_of_isChain
    {first second : Char}
    {others : List Char}
    (joined : (first :: second :: others).IsChain Joined) :
    ∀ character ∈ first :: second :: others, isWordCharacter character = true := by
  obtain ⟨firstJoined, othersJoined⟩ := List.isChain_cons_cons.1 joined
  have firstWord := (Bool.and_eq_true_iff.1 firstJoined).1
  have secondWord := (Bool.and_eq_true_iff.1 firstJoined).2
  have othersWord : ∀ character ∈ second :: others, isWordCharacter character = true := by
    cases others with
    | nil => simpa using secondWord
    | cons third others => exact wordCharacters_of_isChain othersJoined
  intro character member
  rcases List.mem_cons.1 member with same | member
  · rw [same]
    exact firstWord
  · exact othersWord character member

private theorem run_cases
    {text : String}
    {run : List Char}
    (member : run ∈ runs text) :
    (run ≠ [] ∧ ∀ character ∈ run, isWordCharacter character = true)
      ∨ ∃ character ∈ reserved, run = [character] := by
  have nonempty := List.ne_nil_of_mem_splitBy member
  have joined := List.isChain_of_mem_splitBy member
  match run with
  | [] => contradiction
  | [character] =>
      by_cases word : isWordCharacter character = true
      · left
        simpa using word
      · right
        exact ⟨character, by simpa [isWordCharacter] using word, rfl⟩
  | first :: second :: others => exact .inl ⟨nonempty, wordCharacters_of_isChain joined⟩

theorem ofRun_of_wordCharacters
    {run : List Char}
    (word : ∀ character ∈ run, isWordCharacter character = true) :
    ofRun run = .word (String.ofList run) := by
  unfold ofRun
  split
  all_goals first | rfl | exact absurd (word _ (List.mem_singleton_self _)) (by decide)

theorem ofRun_spelling
    {token : Token}
    (valid : token.Valid) :
    ofRun token.spelling.toList = token := by
  cases token with
  | word text =>
      rw [spelling, ofRun_of_wordCharacters valid.2, String.ofList_toList]
  | _ => decide

private theorem isWord_ofRun_reserved
    {character : Char}
    (member : character ∈ reserved) :
    (ofRun [character]).isWord = false := by
  have each : reserved.all fun character => !(ofRun [character]).isWord := by decide
  simpa using List.all_eq_true.1 each character member

theorem valid_of_isWord_eq_false
    {token : Token}
    (noWord : token.isWord = false) :
    token.Valid := by
  cases token with
  | word text => cases noWord
  | _ => trivial

/-! ## Texts and canonical tokens -/

theorem textOf_ofText
    (text : String) :
    textOf (ofText text) = text := by
  have spelled : spelling ∘ ofRun = String.ofList := funext spelling_ofRun
  rw [textOf, ofText, List.map_map, spelled]
  apply String.toList_inj.1
  rw [String.toList_join, List.flatMap_map]
  have flattened := List.flatten_splitBy
    (fun left right => isWordCharacter left && isWordCharacter right) text.toList
  simp only [String.toList_ofList, List.flatMap_id']
  exact flattened

theorem canonical_ofText
    (text : String) :
    Canonical (ofText text) := by
  constructor
  · intro token member
    obtain ⟨run, inRuns, read⟩ := List.mem_map.1 member
    rw [← read]
    rcases run_cases inRuns with ⟨nonempty, wordRun⟩ | ⟨character, inReserved, single⟩
    · rw [ofRun_of_wordCharacters wordRun]
      exact ⟨by simpa using nonempty, by simpa using wordRun⟩
    · rw [single]
      exact valid_of_isWord_eq_false (isWord_ofRun_reserved inReserved)
  · rw [ofText, List.isChain_map]
    have separated := List.isChain_getLast_head_splitBy
      (fun left right => isWordCharacter left && isWordCharacter right) text.toList
    refine separated.imp_of_mem_imp ?_
    intro left right leftMember rightMember apart leftWord
    obtain ⟨leftNonempty, rightNonempty, parted⟩ := apart
    rcases run_cases rightMember with ⟨_, rightRun⟩ | ⟨character, inReserved, single⟩
    · rcases run_cases leftMember with ⟨_, leftRun⟩ | ⟨character, inReserved, single⟩
      · rw [leftRun _ (List.getLast_mem leftNonempty),
          rightRun _ (List.head_mem rightNonempty)] at parted
        cases parted
      · rw [single, isWord_ofRun_reserved inReserved] at leftWord
        cases leftWord
    · rw [single]
      exact isWord_ofRun_reserved inReserved

theorem spelling_of_isWord_eq_false
    {token : Token}
    (noWord : token.isWord = false) :
    ∃ character, isWordCharacter character = false ∧ token.spelling.toList = [character] := by
  cases token with
  | word text => cases noWord
  | wildcard => exact ⟨'*', by decide, rfl⟩
  | comma => exact ⟨',', by decide, rfl⟩
  | slash => exact ⟨'/', by decide, rfl⟩
  | openParen => exact ⟨'(', by decide, rfl⟩
  | closeParen => exact ⟨')', by decide, rfl⟩

theorem spelling_toList_ne_nil
    {token : Token}
    (valid : token.Valid) :
    token.spelling.toList ≠ [] := by
  cases token with
  | word text => exact fun empty => valid.1 (String.toList_eq_nil_iff.1 empty)
  | _ => decide

theorem exists_spelling_eq
    {token : Token}
    (valid : token.Valid) :
    ∃ character others, token.spelling = String.singleton character ++ others := by
  obtain ⟨character, others, spelled⟩ :=
    List.exists_cons_of_ne_nil (spelling_toList_ne_nil valid)
  refine ⟨character, String.ofList others, String.toList_inj.1 ?_⟩
  simp [spelled]

theorem textOf_eq_empty_iff
    {tokens : List Token}
    (valid : ∀ token ∈ tokens, token.Valid) :
    textOf tokens = "" ↔ tokens = [] := by
  constructor
  · intro empty
    cases tokens with
    | nil => rfl
    | cons token tokens =>
        obtain ⟨character, others, spelled⟩ := exists_spelling_eq (valid token List.mem_cons_self)
        rw [textOf_cons, spelled] at empty
        have noCharacters := congrArg String.toList empty
        simp at noCharacters
  · intro none
    rw [none, textOf_nil]

private theorem isChain_spelling
    {token : Token}
    (valid : token.Valid) :
    token.spelling.toList.IsChain Joined := by
  cases token with
  | word text =>
      have word := valid.2
      apply List.Pairwise.isChain
      apply List.pairwise_of_forall_mem_list
      intro left leftMember right rightMember
      exact Bool.and_eq_true_iff.2 ⟨word left leftMember, word right rightMember⟩
  | _ => decide

private theorem parted_spelling
    {left right : Token}
    (leftValid : left.Valid)
    (rightValid : right.Valid)
    (apart : left.Apart right) :
    ∃ leftNonempty rightNonempty,
      (isWordCharacter (left.spelling.toList.getLast leftNonempty)
        && isWordCharacter (right.spelling.toList.head rightNonempty)) = false := by
  refine ⟨spelling_toList_ne_nil leftValid, spelling_toList_ne_nil rightValid, ?_⟩
  cases leftWord : left.isWord with
  | true =>
      obtain ⟨character, reserved, spelled⟩ := spelling_of_isWord_eq_false (apart leftWord)
      simp [spelled, reserved]
  | false =>
      obtain ⟨character, reserved, spelled⟩ := spelling_of_isWord_eq_false leftWord
      simp [spelled, reserved]

/-- Canonical tokens are cut out of their text again, each as one run. -/
theorem ofText_textOf
    {tokens : List Token}
    (canonical : Canonical tokens) :
    ofText (textOf tokens) = tokens := by
  have valid := canonical.valid
  have cut : runs (textOf tokens) = tokens.map fun token => token.spelling.toList := by
    -- The spellings make up the text, none is empty, none falls apart, and no two of them run
    -- into one another.
    apply List.splitBy_eq_iff.2
    refine ⟨?_, ?_, ?_, ?_⟩
    · rw [textOf, String.toList_join, List.flatMap_map, List.flatMap_def]
    · intro member
      obtain ⟨token, inTokens, empty⟩ := List.mem_map.1 member
      exact spelling_toList_ne_nil (valid token inTokens) empty
    · intro run member
      obtain ⟨token, inTokens, same⟩ := List.mem_map.1 member
      rw [← same]
      exact isChain_spelling (valid token inTokens)
    · rw [List.isChain_map]
      refine canonical.apart.imp_of_mem_imp ?_
      intro left right leftMember rightMember apart
      exact parted_spelling (valid left leftMember) (valid right rightMember) apart
  rw [ofText, cut, List.map_map]
  have reread : ∀ token ∈ tokens, (ofRun ∘ fun token => token.spelling.toList) token = token := by
    intro token member
    exact ofRun_spelling (valid token member)
  rw [List.map_congr_left reread, List.map_id']

/-- The tokens of a text are the canonical tokens that spell it. -/
theorem ofText_eq_iff
    {text : String}
    {tokens : List Token} :
    ofText text = tokens ↔ Canonical tokens ∧ textOf tokens = text := by
  constructor
  · intro lexed
    rw [← lexed]
    exact ⟨canonical_ofText text, textOf_ofText text⟩
  · intro written
    rw [← written.2]
    exact ofText_textOf written.1

/-! ## Joining canonical tokens -/

theorem canonical_append_iff
    {front back : List Token} :
    Canonical (front ++ back)
      ↔ Canonical front ∧ Canonical back
          ∧ ∀ left ∈ front.getLast?, ∀ right ∈ back.head?, left.Apart right := by
  constructor
  · intro canonical
    obtain ⟨frontValid, backValid⟩ := List.forall_mem_append.1 canonical.valid
    obtain ⟨frontApart, backApart, apart⟩ := List.isChain_append.1 canonical.apart
    exact ⟨⟨frontValid, frontApart⟩, ⟨backValid, backApart⟩, apart⟩
  · intro parts
    obtain ⟨frontCanonical, backCanonical, apart⟩ := parts
    exact ⟨List.forall_mem_append.2 ⟨frontCanonical.valid, backCanonical.valid⟩,
      List.isChain_append.2 ⟨frontCanonical.apart, backCanonical.apart, apart⟩⟩

theorem Canonical.append_of_no_words
    {front back : List Token}
    (canonical : Canonical front)
    (noWords : ∀ token ∈ back, token.isWord = false) :
    Canonical (front ++ back) := by
  have backApart : back.IsChain Apart := by
    apply List.Pairwise.isChain
    apply List.pairwise_of_forall_mem_list
    intro left _ right member _
    exact noWords right member
  have backCanonical : Canonical back :=
    ⟨fun token member => valid_of_isWord_eq_false (noWords token member), backApart⟩
  refine canonical_append_iff.2 ⟨canonical, backCanonical, ?_⟩
  intro left _ right head _
  exact noWords right (List.mem_of_mem_head? head)

theorem Canonical.join
    {front back : List Token}
    {separator : Token}
    (frontCanonical : Canonical front)
    (backCanonical : Canonical back)
    (noWord : separator.isWord = false) :
    Canonical (front ++ separator :: back) := by
  have extended : Canonical (front ++ [separator]) := by
    apply frontCanonical.append_of_no_words
    intro token member
    rw [List.mem_singleton.1 member]
    exact noWord
  rw [List.append_cons]
  refine canonical_append_iff.2 ⟨extended, backCanonical, ?_⟩
  intro left last right _ leftWord
  obtain rfl : separator = left := by simpa using last
  rw [noWord] at leftWord
  cases leftWord

/-- Two texts with a separator between them are cut into their own tokens and the separator. -/
theorem ofText_join
    (left right : String)
    {separator : Token}
    (noWord : separator.isWord = false) :
    ofText (left ++ separator.spelling ++ right) = ofText left ++ separator :: ofText right := by
  refine ofText_eq_iff.2 ⟨(canonical_ofText left).join (canonical_ofText right) noWord, ?_⟩
  rw [textOf_append, textOf_cons, textOf_ofText, textOf_ofText, String.append_assoc]

/-! ## The token at a place of a text -/

/-- Tokens that differ in the text of a word at most. -/
def SameKind (left right : Token) : Prop :=
  left = right ∨ left.isWord = true ∧ right.isWord = true

theorem SameKind.isWord_eq
    {left right : Token}
    (same : left.SameKind right) :
    left.isWord = right.isWord := by
  rcases same with equal | words
  · rw [equal]
  · rw [words.1, words.2]

/-- The first character of a token decides its kind. -/
theorem sameKind_of_head_eq
    {left right : Token}
    (leftValid : left.Valid)
    (rightValid : right.Valid)
    {character : Char}
    (leftHead : left.spelling.toList.head? = some character)
    (rightHead : right.spelling.toList.head? = some character) :
    left.SameKind right := by
  have wordHead : ∀ token : Token, token.Valid → token.spelling.toList.head? = some character →
      token.isWord = isWordCharacter character := by
    intro token valid head
    cases noWord : token.isWord with
    | true =>
        cases token with
        | word text => exact (valid.2 character (List.mem_of_mem_head? head)).symm
        | _ => cases noWord
    | false =>
        obtain ⟨only, reserved, spelled⟩ := spelling_of_isWord_eq_false noWord
        rw [spelled] at head
        rw [← Option.some.inj head, reserved]
  have leftKind := wordHead left leftValid leftHead
  have rightKind := wordHead right rightValid rightHead
  cases word : isWordCharacter character with
  | true => exact .inr ⟨leftKind.trans word, rightKind.trans word⟩
  | false =>
      left
      obtain ⟨leftOnly, _, leftSpelled⟩ := spelling_of_isWord_eq_false (leftKind.trans word)
      obtain ⟨rightOnly, _, rightSpelled⟩ := spelling_of_isWord_eq_false (rightKind.trans word)
      rw [leftSpelled] at leftHead
      rw [rightSpelled] at rightHead
      have sameOnly := (Option.some.inj leftHead).trans (Option.some.inj rightHead).symm
      rw [← ofRun_spelling leftValid, ← ofRun_spelling rightValid, leftSpelled, rightSpelled,
        sameOnly]

theorem exists_ofText_eq_cons
    {text : String}
    {character : Char}
    {others : List Char}
    (front : text.toList = character :: others) :
    ∃ token tokens, ofText text = token :: tokens
      ∧ token.spelling.toList.head? = some character := by
  have spelled := textOf_ofText text
  have canonical := canonical_ofText text
  cases lexed : ofText text with
  | nil =>
      rw [lexed] at spelled
      rw [← spelled] at front
      cases front
  | cons token tokens =>
      refine ⟨token, tokens, rfl, ?_⟩
      rw [lexed] at spelled canonical
      have nonempty := spelling_toList_ne_nil (canonical.valid token List.mem_cons_self)
      rw [← spelled, textOf_cons, String.toList_append] at front
      rw [← List.head?_append_of_ne_nil _ nonempty, front]
      rfl

end Token

/-! ## Offsets -/

theorem Lexeme.layOut_append
    (offset : Nat)
    (front back : List Token) :
    Lexeme.layOut offset (front ++ back)
      = Lexeme.layOut offset front
          ++ Lexeme.layOut (offset + (Token.textOf front).utf8ByteSize) back := by
  induction front generalizing offset with
  | nil => rfl
  | cons token tokens inductionHypothesis =>
      rw [List.cons_append, Lexeme.layOut_cons, Lexeme.layOut_cons, inductionHypothesis]
      simp [Token.byteLength, String.utf8ByteSize_append, Nat.add_assoc]

theorem Lexeme.map_token_layOut
    (offset : Nat)
    (tokens : List Token) :
    (Lexeme.layOut offset tokens).map Lexeme.token = tokens := by
  induction tokens generalizing offset with
  | nil => rfl
  | cons token tokens inductionHypothesis =>
      rw [Lexeme.layOut_cons, List.map_cons, inductionHypothesis]

namespace TokenStream

theorem tokens_ofText
    (text : String) :
    (ofText text).tokens = Token.ofText text :=
  Lexeme.map_token_layOut 0 (Token.ofText text)

/-- A stream that was read from a text stands where the tokens read so far end. -/
theorem offset_of_reads_ofText
    {text : String}
    {front : List Token}
    {rest : TokenStream}
    (read : (ofText text).Reads front rest) :
    rest.offset = (Token.textOf front).utf8ByteSize := by
  have split : Token.ofText text = front ++ rest.tokens := by
    rw [← tokens_ofText, read.tokens_eq]
  obtain ⟨lexemes, carried, stream⟩ := read
  have laid : Lexeme.layOut 0 (Token.ofText text) = lexemes ++ rest.lexemes :=
    congrArg TokenStream.lexemes stream
  rw [split, Lexeme.layOut_append, Nat.zero_add] at laid
  have sameLength : (Lexeme.layOut 0 front).length = lexemes.length := by
    rw [← List.length_map Lexeme.token, Lexeme.map_token_layOut, ← carried, List.length_map]
  have restLaid := (List.append_inj laid sameLength).2
  cases left : rest.tokens with
  | nil =>
      have eof : text.utf8ByteSize = rest.eof := congrArg TokenStream.eof stream
      rw [left] at restLaid split
      have empty : rest.lexemes = [] := restLaid.symm
      rw [offset, first?, empty]
      rw [← Token.textOf_ofText text, split, List.append_nil] at eof
      exact eof.symm
  | cons token tokens =>
      rw [left, Lexeme.layOut_cons] at restLaid
      rw [offset, first?, ← restLaid]
      rfl

end TokenStream

end FieldSelection
