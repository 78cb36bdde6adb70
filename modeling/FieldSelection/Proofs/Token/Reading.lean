import FieldSelection.Token.Stream

/-!
Contract: what it means to have read tokens from the front of a stream.

Owns:
- `TokenStream.Reads`, the relation between a stream, the tokens read from it and
  the stream that is left;
- the laws of reading nothing, one token, and one part after another.

Does not own: any choice of the tokens that are read.

Reading keeps the offset of the end. Every statement about a production of the
parser is made for an arbitrary rest, so that statements about parts compose.
-/

set_option autoImplicit false

namespace FieldSelection

namespace TokenStream

/-- The stream begins with lexemes that carry the tokens, and the rest is what follows them. -/
def Reads (stream : TokenStream) (tokens : List Token) (rest : TokenStream) : Prop :=
  ∃ read : List Lexeme,
    read.map Lexeme.token = tokens ∧ stream = ⟨read ++ rest.lexemes, rest.eof⟩

theorem reads_nil_iff
    {stream rest : TokenStream} :
    stream.Reads [] rest ↔ stream = rest := by
  simp [Reads]

theorem Reads.refl
    (stream : TokenStream) :
    stream.Reads [] stream :=
  reads_nil_iff.2 rfl

/-- Tokens are read one part after another. -/
theorem reads_append_iff
    {stream rest : TokenStream}
    {front back : List Token} :
    stream.Reads (front ++ back) rest
      ↔ ∃ middle, stream.Reads front middle ∧ middle.Reads back rest := by
  constructor
  · intro readWhole
    rcases readWhole with ⟨read, carried, rfl⟩
    rcases List.map_eq_append_iff.1 carried with
      ⟨frontRead, backRead, rfl, frontCarried, backCarried⟩
    refine ⟨⟨backRead ++ rest.lexemes, rest.eof⟩, ⟨frontRead, frontCarried, ?_⟩,
      ⟨backRead, backCarried, rfl⟩⟩
    rw [List.append_assoc]
  · intro readParts
    rcases readParts with ⟨_, ⟨frontRead, rfl, rfl⟩, ⟨backRead, rfl, rfl⟩⟩
    refine ⟨frontRead ++ backRead, List.map_append, ?_⟩
    rw [List.append_assoc]

theorem Reads.append
    {stream middle rest : TokenStream}
    {front back : List Token}
    (frontRead : stream.Reads front middle)
    (backRead : middle.Reads back rest) :
    stream.Reads (front ++ back) rest :=
  reads_append_iff.2 ⟨middle, frontRead, backRead⟩

theorem reads_cons_iff
    {stream rest : TokenStream}
    {token : Token}
    {tokens : List Token} :
    stream.Reads (token :: tokens) rest
      ↔ ∃ middle, stream.Reads [token] middle ∧ middle.Reads tokens rest := by
  rw [← reads_append_iff]
  rfl

theorem Reads.cons
    {stream middle rest : TokenStream}
    {token : Token}
    {tokens : List Token}
    (firstRead : stream.Reads [token] middle)
    (othersRead : middle.Reads tokens rest) :
    stream.Reads (token :: tokens) rest :=
  firstRead.append othersRead

theorem reads_singleton_iff
    {stream rest : TokenStream}
    {token : Token} :
    stream.Reads [token] rest
      ↔ ∃ offset, stream = ⟨⟨token, offset⟩ :: rest.lexemes, rest.eof⟩ := by
  constructor
  · intro readToken
    rcases readToken with ⟨read, carried, rfl⟩
    rcases List.map_eq_singleton_iff.1 carried with ⟨⟨_, offset⟩, rfl, rfl⟩
    exact ⟨offset, rfl⟩
  · intro atFront
    rcases atFront with ⟨offset, rfl⟩
    exact ⟨[⟨token, offset⟩], rfl, rfl⟩

theorem reads_of_uncons?_eq_some
    {stream : TokenStream}
    {token : Token}
    {rest : stream.Shorter}
    (taken : stream.uncons? = some (token, rest)) :
    stream.Reads [token] rest.val := by
  obtain ⟨lexemes, eof⟩ := stream
  cases lexemes with
  | nil => simp [uncons?] at taken
  | cons lexeme lexemes =>
      simp only [uncons?, Option.some.injEq, Prod.mk.injEq] at taken
      obtain ⟨rfl, rfl⟩ := taken
      exact reads_singleton_iff.2 ⟨lexeme.offset, rfl⟩

theorem accept?_eq_some_iff_reads
    {stream : TokenStream}
    {token : Token}
    {rest : stream.Shorter} :
    stream.accept? token = some rest ↔ stream.Reads [token] rest.val :=
  accept?_eq_some_iff.trans reads_singleton_iff.symm

theorem accept?_of_reads
    {stream rest : TokenStream}
    {token : Token}
    (read : stream.Reads [token] rest) :
    ∃ shorter, stream.accept? token = some ⟨rest, shorter⟩ := by
  obtain ⟨offset, rfl⟩ := reads_singleton_iff.1 read
  exact ⟨length_rest_lt, accept?_eq_some_iff_reads.2 read⟩

theorem accept?_eq_none_iff
    {stream : TokenStream}
    {token : Token} :
    stream.accept? token = none ↔ stream.tokens.head? ≠ some token := by
  obtain ⟨lexemes, eof⟩ := stream
  cases lexemes with
  | nil => simp [accept?, uncons?, tokens]
  | cons lexeme lexemes => simp [accept?, uncons?, tokens]

theorem Reads.tokens_eq
    {stream rest : TokenStream}
    {tokens : List Token}
    (read : stream.Reads tokens rest) :
    stream.tokens = tokens ++ rest.tokens := by
  obtain ⟨lexemes, rfl, rfl⟩ := read
  exact List.map_append

theorem Reads.length_lt
    {stream rest : TokenStream}
    {tokens : List Token}
    (read : stream.Reads tokens rest)
    (nonempty : tokens ≠ []) :
    rest.length < stream.length := by
  obtain ⟨lexemes, rfl, rfl⟩ := read
  have positive := List.length_pos_iff.2 nonempty
  simp only [List.length_map] at positive
  simp only [length, List.length_append]
  omega

theorem reads_tokens
    (stream : TokenStream) :
    stream.Reads stream.tokens ⟨[], stream.eof⟩ :=
  ⟨stream.lexemes, rfl, by rw [List.append_nil]⟩

/-- Only a stream of the same tokens is read to the end. -/
theorem reads_tokens_iff
    {stream : TokenStream}
    {tokens : List Token} :
    stream.Reads tokens ⟨[], stream.eof⟩ ↔ stream.tokens = tokens := by
  constructor
  · intro read
    rw [read.tokens_eq]
    exact List.append_nil tokens
  · intro same
    rw [← same]
    exact stream.reads_tokens

/-- Where the tokens of a stream fall into two parts, the first can be read off. -/
theorem exists_reads_of_tokens_eq
    {stream : TokenStream}
    {front back : List Token}
    (split : stream.tokens = front ++ back) :
    ∃ rest, stream.Reads front rest ∧ rest.tokens = back := by
  obtain ⟨rest, frontRead, backRead⟩ := reads_append_iff.1 (reads_tokens_iff.2 split)
  exact ⟨rest, frontRead, by rw [backRead.tokens_eq]; exact List.append_nil back⟩

end TokenStream

end FieldSelection
