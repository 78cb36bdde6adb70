import FieldSelection.Proofs.Text.Quoted
import FieldSelection.Proofs.Verdict

/-!
Contract: what a text brings into the log when it is read.

Owns:
- the tokens behind which a word is refused;
- the messages of a reading, as free of controls but for a word that was refused;
- the texts that bring a control character into the log.

Does not own: the records themselves (`FieldSelection.Parse`), or what a matcher logs.

A text comes into the log in two ways. It is quoted as a whole, and an error names the token
that it found. The second way is not quoted. It is open to words alone, and only to those behind
a wildcard or the end of a group: where a name is needed a word is welcome, and a word does not
touch another.
-/

set_option autoImplicit false

namespace FieldSelection

/-! ## Words that are refused -/

/-- Behind the other tokens a name is needed. -/
theorem ScanState.name_or_closeParen_of_step?
    {state next : ScanState}
    {token : Token}
    (stepped : state.step? token = some next)
    (named : next.mode ≠ .needName) :
    token.isWord = true ∨ token = .wildcard ∨ token = .closeParen := by
  obtain ⟨mode, depth⟩ := state
  cases token with
  | word text => exact .inl rfl
  | wildcard => exact .inr (.inl rfl)
  | closeParen => exact .inr (.inr rfl)
  | _ => cases mode <;> cases stepped <;> contradiction

theorem ScanState.ne_needName_of_step?_word_eq_none
    {state : ScanState}
    {word : String}
    (refused : state.step? (.word word) = none) :
    state.mode ≠ .needName := by
  obtain ⟨mode, depth⟩ := state
  intro needed
  cases needed
  cases refused

/-- The token before a refused word: a scan has got to it, and it is no word itself. -/
theorem Token.exists_last_before_refused_word
    {front later : List Token}
    {word : String}
    {state : ScanState}
    (canonical : Canonical (front ++ .word word :: later))
    (led : ScanState.steps? {} front = some state)
    (refused : state.step? (.word word) = none) :
    ∃ start last, front = start ++ [last] ∧ (last = .wildcard ∨ last = .closeParen) := by
  have named := ScanState.ne_needName_of_step?_word_eq_none refused
  rcases List.eq_nil_or_concat front with empty | ⟨start, last, ended⟩
  · rw [empty] at led
    cases led
    contradiction
  · rw [List.concat_eq_append] at ended
    rw [ended, ScanState.steps?_append] at led
    obtain ⟨middle, -, lastLed⟩ := Option.bind_eq_some_iff.1 led
    rw [ScanState.steps?_cons] at lastLed
    obtain ⟨next, stepped, ended'⟩ := Option.bind_eq_some_iff.1 lastLed
    cases ended'
    refine ⟨start, last, ended, ?_⟩
    rcases ScanState.name_or_closeParen_of_step? stepped named with isWord | other
    · have apart := (canonical_append_iff.1 canonical).2.2 last (by simp [ended]) (.word word) rfl
      cases apart isWord
    · exact other

/-- A refused word stands in the text directly behind a wildcard or a closing parenthesis. -/
theorem exists_split_of_refused_word
    {text word : String}
    {error : SyntaxError}
    (failed : parse text = .error error)
    (found : error.found = .token (.word word)) :
    ∃ start mark after : String,
      text = start ++ mark ++ word ++ after
        ∧ (mark = "*" ∨ mark = ")")
        ∧ error.offset = (start ++ mark).utf8ByteSize := by
  obtain ⟨front, back, state, lexed, led, refuses, rfl⟩ := parse_eq_error_iff_split.1 failed
  cases back with
  | nil => cases found
  | cons token later =>
      cases found
      have canonical := Token.canonical_ofText text
      have spelled := Token.textOf_ofText text
      rw [lexed] at canonical spelled
      obtain ⟨start, last, rfl, mark⟩ :=
        Token.exists_last_before_refused_word canonical led refuses
      refine ⟨Token.textOf start, last.spelling, Token.textOf later, ?_, ?_, ?_⟩
      · rw [← spelled]
        simp [Token.spelling, String.append_assoc]
      · rcases mark with rfl | rfl
        · exact .inl rfl
        · exact .inr rfl
      · rw [Token.textOf_append, Token.textOf_singleton]

/-! ## Messages -/

theorem Expectation.controlFree_text
    (expected : Expectation) :
    ControlFree expected.text := by
  cases expected with
  | atMostBytes limit =>
      show ControlFree ("at most " ++ toString limit ++ " bytes")
      rw [controlFree_append_iff, controlFree_append_iff]
      exact ⟨⟨by decide, controlFree_toString limit⟩, by decide⟩
  | _ => decide

theorem Token.controlFree_describe
    {token : Token}
    (noWord : token.isWord = false) :
    ControlFree token.describe := by
  cases token with
  | word text => cases noWord
  | _ => decide

/-- The message of an error, up to what was found. -/
def SyntaxError.opening (error : SyntaxError) : String :=
  "invalid field selection at offset " ++ toString error.offset ++ ": expected "
    ++ error.expected.text ++ ", found "

theorem SyntaxError.message_eq
    (error : SyntaxError) :
    error.message = error.opening ++ error.found.text := by
  unfold message opening
  rfl

theorem SyntaxError.controlFree_opening
    (error : SyntaxError) :
    ControlFree error.opening := by
  have invalid : ControlFree "invalid field selection at offset " := by decide
  have expected : ControlFree ": expected " := by decide
  have found : ControlFree ", found " := by decide
  unfold opening
  simp only [controlFree_append_iff]
  exact ⟨⟨⟨⟨invalid, controlFree_toString _⟩, expected⟩, error.expected.controlFree_text⟩, found⟩

/-- What was found in a text is free of controls, unless it is a word. -/
theorem Found.controlFree_or_word
    {text : String}
    {error : SyntaxError}
    (failed : parse text = .error error) :
    ControlFree error.found.text ∨ ∃ word, error.found = .token (.word word) := by
  obtain ⟨front, back, state, -, -, -, rfl⟩ := parse_eq_error_iff_split.1 failed
  cases back with
  | nil =>
      left
      show ControlFree "end of input"
      decide
  | cons token later =>
      cases kind : token.isWord with
      | false => exact .inl (Token.controlFree_describe kind)
      | true =>
          cases token with
          | word text => exact .inr ⟨text, rfl⟩
          | _ => cases kind

/-! ## Records -/

theorem parseRecords_of_check_eq_error
    {limits : Limits}
    {text : String}
    {error : SyntaxError}
    (tooLong : limits.check text = .error error) :
    parseRecords limits text
      = [⟨.debug, parseTarget,
          "rejecting selection of " ++ toString text.utf8ByteSize ++ " bytes"⟩] := by
  unfold parseRecords
  rw [tooLong]
  rfl

/-- The record that a text within the limits begins with. -/
def lexedRecord (text : String) : LogRecord :=
  ⟨.trace, parseTarget,
    "lexed " ++ quote text ++ " into " ++ toString (TokenStream.ofText text).length ++ " tokens"⟩

theorem parseRecords_of_parse_eq_ok
    {limits : Limits}
    {text : String}
    {selection : Selection}
    (within : limits.check text = .ok ())
    (parsed : parse text = .ok selection) :
    parseRecords limits text = [lexedRecord text] := by
  unfold parseRecords
  rw [within]
  dsimp only
  rw [show (TokenStream.ofText text).parse = _ from parsed]
  rfl

/-- The record of a refusal, up to what was found. -/
def SyntaxError.rejection (error : SyntaxError) (text : String) : String :=
  "rejecting selection " ++ quote text ++ ": " ++ error.opening

theorem SyntaxError.rejection_append_found
    (error : SyntaxError)
    (text : String) :
    error.rejection text ++ error.found.text
      = "rejecting selection " ++ quote text ++ ": " ++ error.message := by
  rw [message_eq]
  exact String.append_assoc

theorem parseRecords_of_parse_eq_error
    {limits : Limits}
    {text : String}
    {error : SyntaxError}
    (within : limits.check text = .ok ())
    (failed : parse text = .error error) :
    parseRecords limits text
      = [lexedRecord text, ⟨.debug, parseTarget, error.rejection text ++ error.found.text⟩] := by
  unfold parseRecords
  rw [within, SyntaxError.rejection_append_found]
  dsimp only
  rw [show (TokenStream.ofText text).parse = _ from failed]
  unfold lexedRecord
  rfl

theorem controlFree_lexedRecord
    (text : String) :
    ControlFree (lexedRecord text).message := by
  have lexed : ControlFree "lexed " := by decide
  have into : ControlFree " into " := by decide
  have tokens : ControlFree " tokens" := by decide
  unfold lexedRecord
  simp only [controlFree_append_iff]
  exact ⟨⟨⟨⟨lexed, controlFree_quote text⟩, into⟩, controlFree_toString _⟩, tokens⟩

theorem SyntaxError.controlFree_rejection
    (error : SyntaxError)
    (text : String) :
    ControlFree (error.rejection text) := by
  have rejecting : ControlFree "rejecting selection " := by decide
  have colon : ControlFree ": " := by decide
  unfold rejection
  simp only [controlFree_append_iff]
  exact ⟨⟨⟨rejecting, controlFree_quote text⟩, colon⟩, error.controlFree_opening⟩

theorem controlFree_lengthRecord
    (size : Nat) :
    ControlFree ("rejecting selection of " ++ toString size ++ " bytes") := by
  have rejecting : ControlFree "rejecting selection of " := by decide
  have bytes : ControlFree " bytes" := by decide
  simp only [controlFree_append_iff]
  exact ⟨⟨rejecting, controlFree_toString size⟩, bytes⟩

/-! ## Readings within limits -/

theorem Limits.check_cases
    (limits : Limits)
    (text : String) :
    limits.check text = .ok ()
      ∨ ∃ error count, limits.check text = .error error ∧ error.found = .bytes count := by
  unfold check
  cases limits.maxBytes with
  | none => exact .inl rfl
  | some limit =>
      dsimp only
      split
      · exact .inr ⟨_, _, rfl, rfl⟩
      · exact .inl rfl

theorem parseWith_of_check_eq_ok
    {limits : Limits}
    {text : String}
    (within : limits.check text = .ok ()) :
    parseWith limits text = parse text := by
  rw [parseWith, within]
  rfl

theorem parseWith_of_check_eq_error
    {limits : Limits}
    {text : String}
    {error : SyntaxError}
    (tooLong : limits.check text = .error error) :
    parseWith limits text = .error error := by
  rw [parseWith, tooLong]
  rfl

/-- A reading finds a word in its way only within the limits. -/
theorem parse_eq_error_of_parseWith_found_word
    {limits : Limits}
    {text word : String}
    {error : SyntaxError}
    (failed : parseWith limits text = .error error)
    (found : error.found = .token (.word word)) :
    limits.check text = .ok () ∧ parse text = .error error := by
  rcases limits.check_cases text with within | ⟨refusal, count, tooLong, bytes⟩
  · rw [parseWith_of_check_eq_ok within] at failed
    exact ⟨within, failed⟩
  · rw [parseWith_of_check_eq_error tooLong] at failed
    cases failed
    rw [bytes] at found
    cases found

/-! ## Controls in the log -/

/-- The record of a text that is refused at a word ends with that word as it stands. -/
theorem refusal_mem_parseRecords
    {limits : Limits}
    {text word : String}
    {error : SyntaxError}
    (failed : parseWith limits text = .error error)
    (found : error.found = .token (.word word)) :
    (⟨.debug, parseTarget, error.rejection text ++ ("word `" ++ word ++ "`")⟩ : LogRecord)
      ∈ parseRecords limits text := by
  obtain ⟨within, parseFailed⟩ := parse_eq_error_of_parseWith_found_word failed found
  rw [parseRecords_of_parse_eq_error within parseFailed, found]
  exact List.mem_cons_of_mem _ (List.mem_singleton_self _)

/-- A record of a reading is free of controls, or it is that of a refused word. -/
theorem controlFree_or_refused_word
    {limits : Limits}
    {text : String}
    {record : LogRecord}
    (logged : record ∈ parseRecords limits text) :
    ControlFree record.message
      ∨ ∃ error word, parseWith limits text = .error error
          ∧ error.found = .token (.word word)
          ∧ record = ⟨.debug, parseTarget, error.rejection text ++ ("word `" ++ word ++ "`")⟩ := by
  rcases limits.check_cases text with within | ⟨refusal, count, tooLong, bytes⟩
  · rw [parseWith_of_check_eq_ok within]
    cases parsed : parse text with
    | ok selection =>
        rw [parseRecords_of_parse_eq_ok within parsed, List.mem_singleton] at logged
        rw [logged]
        exact .inl (controlFree_lexedRecord text)
    | error error =>
        rw [parseRecords_of_parse_eq_error within parsed, List.mem_pair] at logged
        rcases logged with rfl | rfl
        · exact .inl (controlFree_lexedRecord text)
        · rcases Found.controlFree_or_word parsed with free | ⟨word, found⟩
          · exact .inl (controlFree_append_iff.2 ⟨error.controlFree_rejection text, free⟩)
          · right
            refine ⟨error, word, rfl, found, ?_⟩
            rw [found]
            rfl
  · rw [parseRecords_of_check_eq_error tooLong, List.mem_singleton] at logged
    rw [logged]
    exact .inl (controlFree_lengthRecord text.utf8ByteSize)

/-- What a reading logs is free of control characters up to a word that is refused, with which
the last record then ends as the word stands in the text. Such a word stands directly behind a
wildcard or a closing parenthesis. So a text brings a control character into the log exactly if
it is refused at a word that has one. -/
theorem controls_in_log_iff_refused_word
    (limits : Limits)
    (text : String) :
    (∀ record ∈ parseRecords limits text,
        ControlFree record.message
          ∨ ∃ error word escaped, parseWith limits text = .error error
              ∧ error.found = .token (.word word)
              ∧ ControlFree escaped
              ∧ record = ⟨.debug, parseTarget, escaped ++ ("word `" ++ word ++ "`")⟩)
      ∧ (∀ error word, parseWith limits text = .error error →
          error.found = .token (.word word) →
            ∃ start mark after : String,
              text = start ++ mark ++ word ++ after
                ∧ (mark = "*" ∨ mark = ")")
                ∧ error.offset = (start ++ mark).utf8ByteSize)
      ∧ ((∃ record ∈ parseRecords limits text, ¬ControlFree record.message)
          ↔ ∃ error word, parseWith limits text = .error error
              ∧ error.found = .token (.word word)
              ∧ ¬ControlFree word) := by
  have quotes : ControlFree "word `" ∧ ControlFree "`" := by decide
  refine ⟨?_, ?_, ?_, ?_⟩
  · intro record logged
    rcases controlFree_or_refused_word logged with free | ⟨error, word, failed, found, rfl⟩
    · exact .inl free
    · exact .inr ⟨error, word, _, failed, found, error.controlFree_rejection text, rfl⟩
  · intro error word failed found
    exact exists_split_of_refused_word
      (parse_eq_error_of_parseWith_found_word failed found).2 found
  · intro controlled
    obtain ⟨record, logged, notFree⟩ := controlled
    rcases controlFree_or_refused_word logged with free | ⟨error, word, failed, found, rfl⟩
    · exact absurd free notFree
    · refine ⟨error, word, failed, found, fun wordFree => notFree ?_⟩
      simp only [controlFree_append_iff]
      exact ⟨error.controlFree_rejection text, ⟨quotes.1, wordFree⟩, quotes.2⟩
  · intro refused
    obtain ⟨error, word, failed, found, notFree⟩ := refused
    refine ⟨_, refusal_mem_parseRecords failed found, fun free => notFree ?_⟩
    simp only [controlFree_append_iff] at free
    exact free.2.1.2

/-- An escape character behind a group comes into the last record as it is. -/
theorem controls_in_log_behind_escape :
    (∃ start mark after : String,
        "a(é)\x1bb" = start ++ mark ++ "\x1bb" ++ after
          ∧ (mark = "*" ∨ mark = ")")
          ∧ 5 = (start ++ mark).utf8ByteSize)
      ∧ ∃ record ∈ parseRecords ⟨some 7⟩ "a(é)\x1bb",
          ¬ControlFree record.message
            ∧ ∃ escaped, ControlFree escaped
                ∧ record = ⟨.debug, parseTarget, escaped ++ ("word `" ++ "\x1bb" ++ "`")⟩ := by
  have failed : parseWith ⟨some 7⟩ "a(é)\x1bb" = .error ⟨5, .separatorOrEnd, .token (.word "\x1bb")⟩ := by
    show parse "a(é)\x1bb" = _
    exact parse_eq_error_iff_split.2
      ⟨[.word "a", .openParen, .word "é", .closeParen], [.word "\x1bb"], ⟨.afterGroup, 0⟩,
        by decide, rfl, rfl, by decide⟩
  have told := controls_in_log_iff_refused_word ⟨some 7⟩ "a(é)\x1bb"
  obtain ⟨record, logged, controlled⟩ := told.2.2.2 ⟨_, _, failed, rfl, by decide⟩
  refine ⟨told.2.1 _ _ failed rfl, record, logged, controlled, ?_⟩
  rcases told.1 record logged with free | ⟨error, word, escaped, failed', found, escapedFree, ended⟩
  · exact absurd free controlled
  · rw [failed] at failed'
    cases failed'
    cases found
    exact ⟨escaped, escapedFree, ended⟩

/-- A newline behind a group breaks the record of the refusal into two lines. -/
theorem exists_newline_in_log :
    ¬∀ (limits : Limits) (text : String), ∀ record ∈ parseRecords limits text,
      ControlFree record.message := by
  intro free
  have failed : parseWith {} "a(b)\n" = .error ⟨4, .separatorOrEnd, .token (.word "\n")⟩ :=
    parse_eq_error_iff_split.2
      ⟨[.word "a", .openParen, .word "b", .closeParen], [.word "\n"], ⟨.afterGroup, 0⟩,
        by decide, rfl, rfl, by decide⟩
  have logged := free _ _ _ (refusal_mem_parseRecords failed rfl)
  simp only [controlFree_append_iff] at logged
  exact absurd logged.2.1.2 (by decide)

end FieldSelection
