import FieldSelection.Proofs.Node.Printing
import FieldSelection.Proofs.Parser.Combinators

/-!
Contract: a production reads to the end of a node, or has not begun, or cannot turn back.

Owns:
- `TokenStream.BeginsWithName`, the streams on which every production begins;
- `Production.continuations`, the tokens that a production leaves to nobody else;
- the severity of a failure, told from the first token of the stream;
- what an optional part and a repetition do where the part is guarded.

Does not own: the error of a failure (`FieldSelection.Proofs.Parser.Productions`).

All productions begin with a name, so they begin on the same streams. Behind the name each
token that is read rules out every other reading, and from there on a failure is committed.
-/

set_option autoImplicit false

namespace FieldSelection

/-! ## Where productions begin -/

/-- The first token is a word or the wildcard. -/
def TokenStream.BeginsWithName (stream : TokenStream) : Prop :=
  ∃ token, stream.tokens.head? = some token ∧ (token.isWord = true ∨ token = .wildcard)

namespace TokenStream

theorem parseName_eq_error_of_not_beginsWithName
    {stream : TokenStream}
    (absent : ¬stream.BeginsWithName) :
    stream.parseName = .error ⟨.recoverable, stream, .fieldName⟩ := by
  obtain ⟨lexemes, eof⟩ := stream
  cases lexemes with
  | nil => rfl
  | cons lexeme lexemes =>
      obtain ⟨token, offset⟩ := lexeme
      cases token with
      | word text => exact absurd ⟨_, rfl, .inl rfl⟩ absent
      | wildcard => exact absurd ⟨_, rfl, .inr rfl⟩ absent
      | _ => rfl

theorem exists_parseName_eq_ok_of_beginsWithName
    {stream : TokenStream}
    (begun : stream.BeginsWithName) :
    ∃ parsed, stream.parseName = .ok parsed := by
  obtain ⟨token, front, isName⟩ := begun
  obtain ⟨lexemes, eof⟩ := stream
  cases lexemes with
  | nil => cases front
  | cons lexeme lexemes =>
      obtain ⟨token, offset⟩ := lexeme
      cases front
      cases token with
      | word text => exact ⟨_, rfl⟩
      | wildcard => exact ⟨_, rfl⟩
      | _ => simp [Token.isWord] at isName

end TokenStream

/-! ## Optional and repeated parts -/

namespace StreamParser

variable {α : Type} {opening : Token} {part : StreamParser α} {stream : TokenStream}

/-- A guarded part reads something, and stops recoverably only where it was entered, for want of
its first token. -/
theorem guarded_ends :
    match guarded opening part stream with
    | .ok taken => taken.rest.length < stream.length
    | .error stop =>
        stop.severity = .recoverable → stop.place = stream ∧ stream.tokens.head? ≠ some opening := by
  cases opened : stream.accept? opening with
  | none =>
      rw [guarded_of_absent opened]
      exact fun _ => ⟨rfl, TokenStream.accept?_eq_none_iff.1 opened⟩
  | some inner =>
      rw [guarded_of_opened opened]
      cases part inner.val with
      | error stop => exact nofun
      | ok taken => exact Nat.lt_of_le_of_lt taken.within inner.property

theorem absent_of_opt_guarded_eq_none
    {taken : Taken stream.length (Option α)}
    (read : (guarded opening part).opt stream = .ok taken)
    (missing : taken.value = none) :
    taken.rest = stream ∧ stream.tokens.head? ≠ some opening := by
  unfold opt at read
  have ends := @guarded_ends α opening part stream
  cases guardedRead : guarded opening part stream with
  | error stop =>
      obtain ⟨severity, place, needed⟩ := stop
      rw [guardedRead] at read ends
      cases severity with
      | recoverable =>
          cases read
          exact ⟨rfl, (ends rfl).2⟩
      | committed => cases read
  | ok guardedTaken =>
      rw [guardedRead] at read
      cases read
      cases missing

/-- A repetition of a guarded part ends where the part has not begun, and stops nowhere else but
behind a token that the part begins with. -/
theorem many_guarded_ends
    (stream : TokenStream) :
    match (guarded opening part).many stream with
    | .ok taken => taken.rest.accept? opening = none
    | .error stop => stop.severity = .committed := by
  cases opened : stream.accept? opening with
  | none =>
      rw [many_guarded_of_absent opened]
      exact opened
  | some inner =>
      cases innerRead : part inner.val with
      | error stop =>
          rw [many_guarded_of_stopped opened innerRead]
          rfl
      | ok taken =>
          obtain ⟨value, middle, within⟩ := taken
          have shorter : middle.length < stream.length :=
            Nat.lt_of_le_of_lt within inner.property
          rw [many_guarded_of_read opened innerRead]
          have others := many_guarded_ends middle
          cases othersRead : (guarded opening part).many middle with
          | error stop =>
              rw [othersRead] at others
              exact others
          | ok othersTaken =>
              rw [othersRead] at others
              exact others
termination_by stream.length

end StreamParser

/-! ## The severity of a failure -/

namespace TokenStream

/-- A loop told as a repetition of a guarded part fails only behind a separator. -/
private theorem severity_of_told_eq_many
    {α : Type}
    {limit : Nat}
    {shape : Shape}
    {outcome : Outcome limit shape}
    {opening : Token}
    {part : StreamParser α}
    {stream : TokenStream}
    {change : Taken stream.length (List α) → Taken limit (Node shape)}
    {failure : ParseFailure}
    (told : outcome.told = ((StreamParser.guarded opening part).many stream).map change)
    (failed : outcome = .error failure) :
    failure.severity = .committed := by
  have ends := @StreamParser.many_guarded_ends α opening part stream
  rw [failed] at told
  cases repeated : (StreamParser.guarded opening part).many stream with
  | error stop =>
      rw [repeated] at told ends
      cases told
      exact ends
  | ok taken =>
      rw [repeated] at told
      cases told

theorem parseField_eq_error_cases
    {stream : TokenStream}
    {failure : ParseFailure}
    (failed : stream.parseField = .error failure) :
    stream.parseName = .error failure ∨ failure.severity = .committed := by
  rw [parseField] at failed
  cases named : stream.parseName with
  | error nameFailure =>
      rw [named] at failed
      cases failed
      exact .inl rfl
  | ok parsedName =>
      obtain ⟨name, afterName, nameRead⟩ := parsedName
      right
      rw [named] at failed
      dsimp only at failed
      split at failed
      · cases failed
      · split at failed
        · cases failed
          rfl
        · split at failed
          · cases failed
            rfl
          · cases failed

theorem parseSelector_eq_error_cases
    {stream : TokenStream}
    {failure : ParseFailure}
    (failed : stream.parseSelector = .error failure) :
    stream.parseName = .error failure ∨ failure.severity = .committed := by
  rw [parseSelector] at failed
  cases headed : stream.parseField with
  | error headFailure =>
      rw [headed] at failed
      cases failed
      exact parseField_eq_error_cases headed
  | ok parsedHead =>
      rw [headed] at failed
      exact .inr (severity_of_told_eq_many (told_parseSteps _ _ _) failed)

theorem parseSelection_eq_error_cases
    {stream : TokenStream}
    {failure : ParseFailure}
    (failed : stream.parseSelection = .error failure) :
    stream.parseName = .error failure ∨ failure.severity = .committed := by
  rw [parseSelection] at failed
  cases headed : stream.parseSelector with
  | error headFailure =>
      rw [headed] at failed
      cases failed
      exact parseSelector_eq_error_cases headed
  | ok parsedFirst =>
      rw [headed] at failed
      exact .inr (severity_of_told_eq_many (told_parseAlternatives _ _ _ _) failed)

end TokenStream

namespace Production

/-- Where the first name fails, every production fails alike. -/
theorem run_eq_error_of_parseName
    {stream : TokenStream}
    {failure : ParseFailure}
    (failed : stream.parseName = .error failure)
    (production : Production) :
    production.run stream = .error failure := by
  have field : stream.parseField = .error failure := by
    rw [TokenStream.parseField, failed]
  have selector : stream.parseSelector = .error failure := by
    rw [TokenStream.parseSelector, field]
  cases production with
  | name => exact failed
  | field => exact field
  | selector => exact selector
  | selection =>
      show stream.parseSelection = .error failure
      rw [TokenStream.parseSelection, selector]

/-- A production that fails has not got past its first name, or is committed. -/
theorem run_eq_error_cases
    {production : Production}
    {stream : TokenStream}
    {failure : ParseFailure}
    (failed : production.run stream = .error failure) :
    stream.parseName = .error failure ∨ failure.severity = .committed := by
  cases production with
  | name => exact .inl failed
  | field => exact TokenStream.parseField_eq_error_cases failed
  | selector => exact TokenStream.parseSelector_eq_error_cases failed
  | selection => exact TokenStream.parseSelection_eq_error_cases failed

/-- A recoverable failure is that of the first name, on a stream that does not begin with one. -/
theorem recoverable_of_run_eq_error
    {production : Production}
    {stream : TokenStream}
    {failure : ParseFailure}
    (failed : production.run stream = .error failure)
    (recoverable : failure.severity = .recoverable) :
    ¬stream.BeginsWithName ∧ failure.stopped = stream := by
  rcases run_eq_error_cases failed with nameFailed | committed
  · have absent : ¬stream.BeginsWithName := by
      intro begun
      obtain ⟨parsed, named⟩ := TokenStream.exists_parseName_eq_ok_of_beginsWithName begun
      rw [named] at nameFailed
      cases nameFailed
    rw [TokenStream.parseName_eq_error_of_not_beginsWithName absent] at nameFailed
    cases nameFailed
    exact ⟨absent, rfl⟩
  · rw [recoverable] at committed
    cases committed

end Production

/-! ## What a production reads -/

/-- The token that would open a body for the bare name that a node ends with, if it ends so. -/
def Node.openings {shape : Shape} (node : Node shape) : List Token :=
  if node.ending = .afterName then [.openParen] else []

theorem Node.head?_ne_of_mem_openings
    {shape : Shape}
    {node : Node shape}
    {rest : TokenStream}
    (closed : node.ClosedBefore rest) :
    ∀ token ∈ node.openings, rest.tokens.head? ≠ some token := by
  intro token member
  unfold openings at member
  split at member
  · rename_i bare
    rw [List.mem_singleton.1 member]
    exact TokenStream.accept?_eq_none_iff.1 (closed bare)
  · cases member

namespace Production

/-- The tokens with which a production would have gone on after a node that it has read. -/
def continuations : (production : Production) → Node production.shape → List Token
  | .name, _ => []
  | .field, node => node.openings
  | .selector, node => .slash :: node.openings
  | .selection, node => .comma :: .slash :: node.openings

theorem reads_of_run_eq_ok
    {production : Production}
    {stream rest : TokenStream}
    {node : Node production.shape}
    {shorter : rest.length < stream.length}
    (read : production.run stream = .ok ⟨node, rest, shorter⟩) :
    stream.Reads node.tokens rest
      ∧ ∀ token ∈ production.continuations node, rest.tokens.head? ≠ some token := by
  cases production with
  | name => exact ⟨TokenStream.reads_of_parseName_eq_ok read, nofun⟩
  | field =>
      have account := stream.parseField_accounts
      rw [show stream.parseField = _ from read] at account
      obtain ⟨reads, ends⟩ := account.reads_of_ok
      exact ⟨reads, Node.head?_ne_of_mem_openings ends.1⟩
  | selector =>
      have account := stream.parseSelector_accounts
      rw [show stream.parseSelector = _ from read] at account
      obtain ⟨reads, ends⟩ := account.reads_of_ok
      refine ⟨reads, List.forall_mem_cons.2 ⟨?_, Node.head?_ne_of_mem_openings ends.1⟩⟩
      exact TokenStream.accept?_eq_none_iff.1 (ends.2 .slash (by decide))
  | selection =>
      have account := stream.parseSelection_accounts
      rw [show stream.parseSelection = _ from read] at account
      obtain ⟨reads, ends⟩ := account.reads_of_ok
      refine ⟨reads, List.forall_mem_cons.2 ⟨?_, List.forall_mem_cons.2
        ⟨?_, Node.head?_ne_of_mem_openings ends.1⟩⟩⟩
      · exact TokenStream.accept?_eq_none_iff.1 (ends.2 .comma (by decide))
      · exact TokenStream.accept?_eq_none_iff.1 (ends.2 .slash (by decide))

/-- A production reads exactly the tokens that its node is written with, at least one, leaves
the rest as it stood, and leaves nothing that it could have gone on with. It fails recoverably
exactly on the streams that do not begin with a name, and then on the spot; every other failure
is committed. Each production is the combination of parts that its line of the grammar says, and
in these an optional or repeated part is guarded: it is taken for absent only where its first
token is, and it never comes without reading anything. -/
theorem run_never_turns_back :
    (∀ (production : Production) (stream rest : TokenStream) (node : Node production.shape)
        (shorter : rest.length < stream.length),
        production.run stream = .ok ⟨node, rest, shorter⟩ →
          (∃ read, read ≠ []
              ∧ stream = ⟨read ++ rest.lexemes, rest.eof⟩
              ∧ read.map Lexeme.token = node.tokens
              ∧ Token.textOf (read.map Lexeme.token) = node.render)
            ∧ ∀ token ∈ production.continuations node, rest.tokens.head? ≠ some token)
      ∧ (∀ (production : Production) (stream : TokenStream),
          ((∃ failure, production.run stream = .error failure ∧ failure.severity = .recoverable)
              ↔ ¬stream.BeginsWithName)
            ∧ ∀ failure, production.run stream = .error failure →
                failure.severity = .recoverable ∧ failure.stopped = stream
                  ∨ failure.severity = .committed)
      ∧ (∀ production : Production, production.parser = production.ofParts)
      ∧ ∀ {α : Type} (opening : Token) (part : StreamParser α) (stream : TokenStream),
          (∀ taken, (StreamParser.guarded opening part).opt stream = .ok taken →
              taken.value = none → taken.rest = stream ∧ stream.tokens.head? ≠ some opening)
            ∧ (∀ taken, (StreamParser.guarded opening part).many stream = .ok taken →
                taken.rest.tokens.head? ≠ some opening)
            ∧ (∀ stop, (StreamParser.guarded opening part).many stream = .error stop →
                stop.severity = .committed)
            ∧ ∀ taken, StreamParser.guarded opening part stream = .ok taken →
                taken.rest.length < stream.length := by
  refine ⟨?_, ?_, parser_eq_ofParts, ?_⟩
  · intro production stream rest node shorter ran
    obtain ⟨⟨read, carried, split⟩, ends⟩ := reads_of_run_eq_ok ran
    refine ⟨⟨read, ?_, split, carried, ?_⟩, ends⟩
    · intro empty
      rw [empty] at carried
      exact node.tokens_ne_nil carried.symm
    · rw [carried, Node.render_eq_textOf]
  · intro production stream
    refine ⟨⟨?_, ?_⟩, ?_⟩
    · intro failed
      obtain ⟨failure, failed, recoverable⟩ := failed
      exact (recoverable_of_run_eq_error failed recoverable).1
    · intro absent
      have nameFailed := TokenStream.parseName_eq_error_of_not_beginsWithName absent
      exact ⟨_, run_eq_error_of_parseName nameFailed production, rfl⟩
    · intro failure failed
      cases severity : failure.severity with
      | recoverable => exact .inl ⟨rfl, (recoverable_of_run_eq_error failed severity).2⟩
      | committed => exact .inr rfl
  · intro α opening part stream
    have manyEnds := @StreamParser.many_guarded_ends α opening part stream
    have ends := @StreamParser.guarded_ends α opening part stream
    refine ⟨?_, ?_, ?_, ?_⟩
    · intro taken read missing
      exact StreamParser.absent_of_opt_guarded_eq_none read missing
    · intro taken read
      rw [read] at manyEnds
      exact TokenStream.accept?_eq_none_iff.1 manyEnds
    · intro stop stopped
      rw [stopped] at manyEnds
      exact manyEnds
    · intro taken read
      rw [read] at ends
      exact ends

/-- A field of an empty word and a group stops before a slash. A selector that ends with a slash
fails for good, and no group is missed before a slash. A repetition of names behind slashes takes
one and ends, and fails for good where a comma comes instead of the name. -/
theorem run_never_turns_back_at_slash :
    let group : TokenStream :=
      ⟨[⟨.word "", 4⟩, ⟨.openParen, 4⟩, ⟨.wildcard, 2⟩, ⟨.closeParen, 2⟩, ⟨.slash, 9⟩], 5⟩
    let node : Field :=
      .ofSubSelection (.scope (.ofWord (.literal "")) (.only (.ofField (.ofName (.ofWildcard .star)))))
    let step : TokenStream := ⟨[⟨.slash, 0⟩, ⟨.wildcard, 1⟩], 2⟩
    let guarded := StreamParser.guarded .slash StreamParser.name
    (∃ shorter, Production.run .field group = .ok ⟨node, ⟨[⟨.slash, 9⟩], 5⟩, shorter⟩)
      ∧ (∃ read, read ≠ []
          ∧ group = ⟨read ++ [⟨.slash, 9⟩], 5⟩
          ∧ read.map Lexeme.token = node.tokens
          ∧ Token.textOf (read.map Lexeme.token) = node.render)
      ∧ (∃ failure, Production.run .selector ⟨[⟨.wildcard, 0⟩, ⟨.slash, 1⟩], 2⟩ = .error failure
          ∧ (failure.severity = .recoverable ∧ failure.stopped = ⟨[⟨.wildcard, 0⟩, ⟨.slash, 1⟩], 2⟩
            ∨ failure.severity = .committed))
      ∧ (∃ taken, (StreamParser.guarded .openParen (Production.parser .selection)).opt
            ⟨[⟨.slash, 9⟩], 5⟩ = .ok taken
          ∧ taken.value = none ∧ taken.rest = ⟨[⟨.slash, 9⟩], 5⟩)
      ∧ (∃ taken, guarded.many step = .ok taken ∧ taken.rest.tokens.head? ≠ some .slash)
      ∧ (∃ stop, guarded.many ⟨[⟨.slash, 0⟩, ⟨.comma, 1⟩], 2⟩ = .error stop
          ∧ stop.severity = .committed)
      ∧ ∃ taken, guarded step = .ok taken ∧ taken.rest.length < 2 := by
  intro group node step guarded
  have reads : group.Reads node.tokens ⟨[⟨.slash, 9⟩], 5⟩ :=
    ⟨[⟨.word "", 4⟩, ⟨.openParen, 4⟩, ⟨.wildcard, 2⟩, ⟨.closeParen, 2⟩], rfl, rfl⟩
  obtain ⟨shorter, ran⟩ := TokenStream.parseField_of_reads node reads nofun
  have failed : Production.run .selector ⟨[⟨.wildcard, 0⟩, ⟨.slash, 1⟩], 2⟩
      = .error ⟨.committed, ⟨[], 2⟩, .fieldName⟩ := by
    simp [Production.run, TokenStream.parseSelector, TokenStream.parseField,
      TokenStream.parseSteps, TokenStream.parseName, TokenStream.accept?, TokenStream.uncons?,
      ParseFailure.commit]
  have optional : (StreamParser.guarded .openParen (Production.parser .selection)).opt
      ⟨[⟨.slash, 9⟩], 5⟩ = .ok ⟨none, ⟨[⟨.slash, 9⟩], 5⟩, Nat.le_refl _⟩ := rfl
  have once : guarded.many step = .ok ⟨[.ofWildcard .star], ⟨[], 2⟩, Nat.zero_le _⟩ := by
    rw [StreamParser.many_guarded_of_read rfl rfl, StreamParser.many_guarded_of_absent rfl]
    rfl
  have stopped : guarded.many ⟨[⟨.slash, 0⟩, ⟨.comma, 1⟩], 2⟩
      = .error ⟨.committed, ⟨[⟨.comma, 1⟩], 2⟩, Expectation.fieldName.text⟩ := by
    rw [StreamParser.many_guarded_of_stopped rfl rfl]
    rfl
  have single : guarded step = .ok ⟨.ofWildcard .star, ⟨[], 2⟩, Nat.zero_le _⟩ := rfl
  have parts := fun stream => run_never_turns_back.2.2.2 .slash StreamParser.name stream
  refine ⟨⟨shorter, ran⟩, (run_never_turns_back.1 .field _ _ _ shorter ran).1, ?_, ?_, ?_, ?_, ?_⟩
  · exact ⟨_, failed, (run_never_turns_back.2.1 .selector _).2 _ failed⟩
  · exact ⟨_, optional, rfl, (run_never_turns_back.2.2.2 _ _ _).1 _ optional rfl |>.1⟩
  · exact ⟨_, once, (parts step).2.1 _ once⟩
  · exact ⟨_, stopped, (parts _).2.2.1 _ stopped⟩
  · exact ⟨_, single, (parts step).2.2.2 _ single⟩

end Production

end FieldSelection
