import FieldSelection.Parser.Combinators
import FieldSelection.Proofs.Grammar

/-!
Contract: the productions as they run are the combinations of parts that the grammar says.

Owns:
- what a guarded part and a repetition of it do with a stream, case by case;
- the loops of the parser as repetitions of a guarded part;
- the equation of each production with its line of the grammar.

Does not own: what a production reads (`FieldSelection.Proofs.Parser.Productions`).

A loop of the parser carries along what it has read, while a repetition lists its values. So
the equation for a loop is about an arbitrary beginning, and follows the stream.
-/

set_option autoImplicit false

namespace FieldSelection

namespace StreamParser

variable {α β : Type} {opening : Token} {part : StreamParser α} {stream : TokenStream}

/-! ## One part after another -/

theorem pair_of_stopped
    {stop : Stop}
    (stopped : part stream = .error stop)
    (second : StreamParser β) :
    part.pair second stream = .error stop := by
  rw [pair, stopped]

theorem pair_of_read
    {value : α}
    {middle : TokenStream}
    {within : middle.length ≤ stream.length}
    (read : part stream = .ok ⟨value, middle, within⟩)
    (second : StreamParser β) :
    part.pair second stream = (second middle).map (Taken.lift (value, ·) within) := by
  rw [pair, read]

/-! ## Guarded parts -/

theorem guarded_of_absent
    (absent : stream.accept? opening = none) :
    guarded opening part stream = .error ⟨.recoverable, stream, opening.needed⟩ := by
  simp [guarded, preceded, map, pair, token, absent, Except.map]

theorem guarded_of_opened
    {inner : stream.Shorter}
    (opened : stream.accept? opening = some inner) :
    guarded opening part stream
      = ((part inner.val).mapError Stop.commit).map
          (Taken.lift id (Nat.le_of_lt inner.property)) := by
  simp only [guarded, preceded, map, pair, token, commit, opened]
  cases part inner.val with
  | error stop => rfl
  | ok taken => rfl

/-! ## Repetitions of them -/

theorem many_guarded_of_absent
    (absent : stream.accept? opening = none) :
    (guarded opening part).many stream = .ok ⟨[], stream, Nat.le_refl _⟩ := by
  rw [many, guarded_of_absent absent]

theorem many_guarded_of_stopped
    {inner : stream.Shorter}
    {stop : Stop}
    (opened : stream.accept? opening = some inner)
    (stopped : part inner.val = .error stop) :
    (guarded opening part).many stream = .error stop.commit := by
  rw [many, guarded_of_opened opened, stopped]
  rfl

theorem many_guarded_of_read
    {inner : stream.Shorter}
    {value : α}
    {middle : TokenStream}
    {within : middle.length ≤ inner.val.length}
    (opened : stream.accept? opening = some inner)
    (read : part inner.val = .ok ⟨value, middle, within⟩) :
    (guarded opening part).many stream
      = ((guarded opening part).many middle).map
          (Taken.lift (value :: ·) (Nat.le_trans within (Nat.le_of_lt inner.property))) := by
  have shorter : middle.length < stream.length := Nat.lt_of_le_of_lt within inner.property
  rw [many, guarded_of_opened opened, read]
  exact if_pos shorter

end StreamParser

/-! ## The loops of the parser -/

namespace TokenStream

theorem told_parseSteps
    (stream : TokenStream)
    (init : Selector)
    {limit : Nat}
    (read : stream.length < limit) :
    (stream.parseSteps init read).told
      = ((StreamParser.guarded .slash (Production.parser .field)).many stream).map
          (Taken.lift (fun steps => steps.foldl (fun init last => .ofChain (.slash init last)) init)
            (Nat.le_of_lt read)) := by
  rw [parseSteps]
  cases separating : stream.accept? .slash with
  | none =>
      rw [StreamParser.many_guarded_of_absent separating]
      rfl
  | some inner =>
      obtain ⟨inner, separated⟩ := inner
      dsimp only
      cases headed : inner.parseField with
      | error failure =>
          have stopped := congrArg Outcome.told headed
          rw [StreamParser.many_guarded_of_stopped separating stopped]
          rfl
      | ok parsedLast =>
          obtain ⟨last, rest, fieldRead⟩ := parsedLast
          have lastRead := congrArg Outcome.told headed
          have shorter : rest.length < limit := by omega
          rw [StreamParser.many_guarded_of_read separating lastRead]
          dsimp only
          rw [told_parseSteps rest (.ofChain (.slash init last)) shorter]
          cases (StreamParser.guarded .slash (Production.parser .field)).many rest with
          | error stop => rfl
          | ok steps => rfl
termination_by stream.length

theorem told_parseAlternatives
    (stream : TokenStream)
    (older : List Selector)
    (latest : Selector)
    {limit : Nat}
    (read : stream.length < limit) :
    (stream.parseAlternatives older latest read).told
      = ((StreamParser.guarded .comma (Production.parser .selector)).many stream).map
          (Taken.lift (fun rest => Selection.prepend older (Selection.ofList latest rest))
            (Nat.le_of_lt read)) := by
  rw [parseAlternatives]
  cases separating : stream.accept? .comma with
  | none =>
      rw [StreamParser.many_guarded_of_absent separating]
      rfl
  | some inner =>
      obtain ⟨inner, separated⟩ := inner
      dsimp only
      cases headed : inner.parseSelector with
      | error failure =>
          have stopped := congrArg Outcome.told headed
          rw [StreamParser.many_guarded_of_stopped separating stopped]
          rfl
      | ok parsedNext =>
          obtain ⟨next, rest, selectorRead⟩ := parsedNext
          have nextRead := congrArg Outcome.told headed
          have shorter : rest.length < limit := by omega
          rw [StreamParser.many_guarded_of_read separating nextRead]
          dsimp only
          rw [told_parseAlternatives rest (latest :: older) next shorter]
          cases (StreamParser.guarded .comma (Production.parser .selector)).many rest with
          | error stop => rfl
          | ok taken =>
              simp only [Except.map, Taken.lift, Selection.ofList_cons]
              rfl
termination_by stream.length

end TokenStream

/-! ## The productions -/

theorem StreamParser.take_one_cons
    (lexeme : Lexeme)
    (rest : List Lexeme)
    (eof : Nat) :
    StreamParser.take 1 ⟨lexeme :: rest, eof⟩
      = .ok ⟨⟨[lexeme], eof⟩, ⟨rest, eof⟩, Nat.le_of_lt TokenStream.length_rest_lt⟩ := by
  have split : TokenStream.split? ⟨lexeme :: rest, eof⟩ 1
      = some (⟨rest, eof⟩, ⟨[lexeme], eof⟩) := by
    simp [TokenStream.split?, TokenStream.length]
  unfold StreamParser.take
  split
  · rename_i splitSome
    rw [split] at splitSome
    cases splitSome
    rfl
  · rename_i splitNone
    rw [split] at splitNone
    cases splitNone

theorem TokenStream.told_parseName
    (stream : TokenStream) :
    stream.parseName.told = StreamParser.name stream := by
  obtain ⟨lexemes, eof⟩ := stream
  cases lexemes with
  | nil => rfl
  | cons lexeme lexemes =>
      obtain ⟨token, offset⟩ := lexeme
      rw [StreamParser.name, StreamParser.take_one_cons]
      cases token with
      | word text => rfl
      | wildcard => rfl
      | _ => rfl

theorem TokenStream.told_parseField
    (stream : TokenStream) :
    stream.parseField.told = StreamParser.field (Production.parser .selection) stream := by
  rw [parseField]
  unfold StreamParser.field StreamParser.map
  have nameTold := stream.told_parseName.symm
  cases named : stream.parseName with
  | error failure =>
      rw [named] at nameTold
      rw [StreamParser.pair_of_stopped nameTold]
      rfl
  | ok parsedName =>
      obtain ⟨name, afterName, nameRead⟩ := parsedName
      rw [named] at nameTold
      rw [StreamParser.pair_of_read nameTold]
      dsimp only
      cases opening : afterName.accept? .openParen with
      | none =>
          rw [StreamParser.opt, StreamParser.guarded_of_absent opening]
          rfl
      | some inner =>
          obtain ⟨inner, opened⟩ := inner
          rw [StreamParser.opt, StreamParser.guarded_of_opened opening]
          unfold StreamParser.terminated StreamParser.map
          dsimp only
          cases selected : inner.parseSelection with
          | error failure =>
              have bodyTold := congrArg Outcome.told selected
              rw [StreamParser.pair_of_stopped bodyTold]
              rfl
          | ok parsedBody =>
              obtain ⟨body, afterBody, bodyRead⟩ := parsedBody
              have bodyTold := congrArg Outcome.told selected
              rw [StreamParser.pair_of_read bodyTold]
              dsimp only [StreamParser.token]
              cases closing : afterBody.accept? .closeParen with
              | none => rfl
              | some rest => rfl

theorem TokenStream.told_parseSelector
    (stream : TokenStream) :
    stream.parseSelector.told = StreamParser.selector (Production.parser .field) stream := by
  rw [parseSelector]
  unfold StreamParser.selector StreamParser.map
  cases headed : stream.parseField with
  | error failure =>
      have headTold := congrArg Outcome.told headed
      rw [StreamParser.pair_of_stopped headTold]
      rfl
  | ok parsedHead =>
      obtain ⟨head, rest, headRead⟩ := parsedHead
      have headTold := congrArg Outcome.told headed
      rw [StreamParser.pair_of_read headTold]
      dsimp only
      rw [told_parseSteps]
      cases (StreamParser.guarded .slash (Production.parser .field)).many rest with
      | error stop => rfl
      | ok steps => rfl

theorem TokenStream.told_parseSelection
    (stream : TokenStream) :
    stream.parseSelection.told = StreamParser.selection (Production.parser .selector) stream := by
  rw [parseSelection]
  unfold StreamParser.selection StreamParser.map
  cases headed : stream.parseSelector with
  | error failure =>
      have firstTold := congrArg Outcome.told headed
      rw [StreamParser.pair_of_stopped firstTold]
      rfl
  | ok parsedFirst =>
      obtain ⟨first, rest, firstRead⟩ := parsedFirst
      have firstTold := congrArg Outcome.told headed
      rw [StreamParser.pair_of_read firstTold]
      dsimp only
      rw [told_parseAlternatives]
      cases (StreamParser.guarded .comma (Production.parser .selector)).many rest with
      | error stop => rfl
      | ok others => rfl

/-- Each production does with a stream what its line of the grammar says, where the parts are
other productions, an optional group, or a repetition behind a separator. -/
theorem Production.parser_eq_ofParts
    (production : Production) :
    production.parser = production.ofParts := by
  funext stream
  cases production with
  | name => exact stream.told_parseName
  | field => exact stream.told_parseField
  | selector => exact stream.told_parseSelector
  | selection => exact stream.told_parseSelection

end FieldSelection
