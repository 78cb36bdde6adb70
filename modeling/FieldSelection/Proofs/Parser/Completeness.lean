import FieldSelection.Proofs.Parser.Productions

/-!
Contract: the parser reads back every tree from its own tokens.

Owns:
- the completeness of each production on a stream that begins with the tokens of a
  node and has nothing with which the node would go on;
- the verdict of the whole parser, as an equation between tokens and as the verdict
  of the scan, with every field of an error.

Does not own: the grammar (`FieldSelection.Proofs.Grammar`).

A chain leans to the left, but is read from its head on. So the statement for a
selector says where its reading has got to, and leaves the rest to the loop.
-/

set_option autoImplicit false

namespace FieldSelection

namespace TokenStream

private theorem accept?_eq_none_of_reads
    {stream rest : TokenStream}
    {token other : Token}
    {tokens : List Token}
    (read : stream.Reads (token :: tokens) rest)
    (different : token ≠ other) :
    stream.accept? other = none := by
  rw [accept?_eq_none_iff, read.tokens_eq]
  simpa using different

private theorem Node.endsBefore_of_reads
    {shape : Shape}
    (node : Node shape)
    {stream rest : TokenStream}
    {token : Token}
    {tokens : List Token}
    (read : stream.Reads (token :: tokens) rest)
    (opensNothing : token ≠ .openParen)
    (noSeparator : token ∉ shape.separators) :
    node.EndsBefore stream := by
  refine ⟨fun _ => accept?_eq_none_of_reads read opensNothing, ?_⟩
  intro separator member
  apply accept?_eq_none_of_reads read
  intro same
  rw [same] at noSeparator
  exact noSeparator member

/-! ## One round of a loop -/

private theorem parseSteps_stop
    {stream : TokenStream}
    (stop : stream.accept? .slash = none)
    (init : Selector)
    {limit : Nat}
    (shorter : stream.length < limit) :
    stream.parseSteps init shorter = .ok ⟨init, stream, shorter⟩ := by
  rw [parseSteps, stop]

private theorem parseSteps_step
    {stream inner rest : TokenStream}
    {last : Field}
    {separated : inner.length < stream.length}
    {fieldRead : rest.length < inner.length}
    (separating : stream.accept? .slash = some ⟨inner, separated⟩)
    (headed : inner.parseField = .ok ⟨last, rest, fieldRead⟩)
    (init : Selector)
    {limit : Nat}
    (shorter : stream.length < limit) :
    stream.parseSteps init shorter
      = rest.parseSteps (.ofChain (.slash init last)) (by omega) := by
  rw [parseSteps, separating]
  dsimp only
  rw [headed]

private theorem parseAlternatives_stop
    {stream : TokenStream}
    (stop : stream.accept? .comma = none)
    (older : List Selector)
    (latest : Selector)
    {limit : Nat}
    (shorter : stream.length < limit) :
    stream.parseAlternatives older latest shorter
      = .ok ⟨Selection.prepend older (.only latest), stream, shorter⟩ := by
  rw [parseAlternatives, stop]

private theorem parseAlternatives_step
    {stream inner rest : TokenStream}
    {next : Selector}
    {separated : inner.length < stream.length}
    {selectorRead : rest.length < inner.length}
    (separating : stream.accept? .comma = some ⟨inner, separated⟩)
    (headed : inner.parseSelector = .ok ⟨next, rest, selectorRead⟩)
    (older : List Selector)
    (latest : Selector)
    {limit : Nat}
    (shorter : stream.length < limit) :
    stream.parseAlternatives older latest shorter
      = rest.parseAlternatives (latest :: older) next (by omega) := by
  rw [parseAlternatives, separating]
  dsimp only
  rw [headed]

/-! ## Productions -/

theorem parseName_of_reads
    (name : Name)
    {stream rest : TokenStream}
    (read : stream.Reads name.tokens rest) :
    ∃ shorter, stream.parseName = .ok ⟨name, rest, shorter⟩ := by
  cases name with
  | ofWord word =>
      cases word
      obtain ⟨offset, rfl⟩ := reads_singleton_iff.1 read
      exact ⟨length_rest_lt, rfl⟩
  | ofWildcard wildcard =>
      cases wildcard
      obtain ⟨offset, rfl⟩ := reads_singleton_iff.1 read
      exact ⟨length_rest_lt, rfl⟩

mutual

theorem parseField_of_reads
    (field : Field)
    {stream rest : TokenStream}
    (read : stream.Reads field.tokens rest)
    (closed : field.ClosedBefore rest) :
    ∃ shorter, stream.parseField = .ok ⟨field, rest, shorter⟩ := by
  match field with
  | .ofName name =>
      obtain ⟨shorter, named⟩ := parseName_of_reads name read
      refine ⟨shorter, ?_⟩
      rw [parseField, named]
      dsimp only
      rw [closed rfl]
  | .ofSubSelection (.scope name body) =>
      change stream.Reads (Node.scope name body).tokens rest at read
      rw [Node.tokens_scope] at read
      obtain ⟨afterName, readName, readGroup⟩ := reads_append_iff.1 read
      obtain ⟨inner, readOpening, readOn⟩ := reads_cons_iff.1 readGroup
      obtain ⟨afterBody, readBody, readClosing⟩ := reads_append_iff.1 readOn
      have bodyEnds := Node.endsBefore_of_reads body readClosing (by decide) (by decide)
      obtain ⟨_, named⟩ := parseName_of_reads name readName
      obtain ⟨_, opening⟩ := accept?_of_reads readOpening
      obtain ⟨_, selected⟩ := parseSelection_of_reads body readBody bodyEnds
      obtain ⟨_, closing⟩ := accept?_of_reads readClosing
      refine ⟨read.length_lt (by simp), ?_⟩
      rw [parseField, named]
      dsimp only
      rw [opening]
      dsimp only
      rw [selected]
      dsimp only
      rw [closing]
termination_by (sizeOf field, 0)
decreasing_by
  simp only [Node.ofSubSelection.sizeOf_spec, Node.scope.sizeOf_spec]
  exact Prod.Lex.left _ _ (by omega)

theorem parseSelector_of_reads
    (selector : Selector)
    {stream rest : TokenStream}
    (read : stream.Reads selector.tokens rest)
    (closed : selector.ClosedBefore rest) :
    ∃ shorter, stream.parseSelector = rest.parseSteps selector shorter := by
  match selector with
  | .ofField field =>
      obtain ⟨shorter, headed⟩ := parseField_of_reads field read closed
      refine ⟨shorter, ?_⟩
      rw [parseSelector, headed]
  | .ofChain (.slash init last) =>
      obtain ⟨middle, readInit, readStep⟩ := reads_append_iff.1 read
      obtain ⟨inner, readSlash, readLast⟩ := reads_cons_iff.1 readStep
      have initClosed : init.ClosedBefore middle :=
        fun _ => accept?_eq_none_of_reads readStep (by decide)
      obtain ⟨_, reached⟩ := parseSelector_of_reads init readInit initClosed
      obtain ⟨_, separating⟩ := accept?_of_reads readSlash
      obtain ⟨_, headed⟩ := parseField_of_reads last readLast closed
      -- The reading of the first steps has got to the slash, and the loop goes one round further.
      refine ⟨read.length_lt (Node.tokens_ne_nil _), ?_⟩
      rw [reached, parseSteps_step separating headed]
termination_by (sizeOf selector, 0)

theorem parseSelection_of_reads
    (selection : Selection)
    {stream rest : TokenStream}
    (read : stream.Reads selection.tokens rest)
    (ends : selection.EndsBefore rest) :
    ∃ shorter, stream.parseSelection = .ok ⟨selection, rest, shorter⟩ := by
  obtain ⟨first, middle, firstRead, headed, continued⟩ :=
    parseAlternatives_of_reads selection read ends
  obtain ⟨shorter, others⟩ := continued [] firstRead
  refine ⟨shorter, ?_⟩
  rw [parseSelection, headed]
  exact others
termination_by (sizeOf selection, 1)

theorem parseAlternatives_of_reads
    (selection : Selection)
    {stream rest : TokenStream}
    (read : stream.Reads selection.tokens rest)
    (ends : selection.EndsBefore rest) :
    ∃ first middle firstRead,
      stream.parseSelector = .ok ⟨first, middle, firstRead⟩
        ∧ ∀ (older : List Selector) {limit : Nat} (middleShorter : middle.length < limit),
          ∃ shorter, middle.parseAlternatives older first middleShorter
            = .ok ⟨Selection.prepend older selection, rest, shorter⟩ := by
  match selection with
  | .only alternative =>
      obtain ⟨shorter, reached⟩ := parseSelector_of_reads alternative read ends.1
      rw [parseSteps_stop (ends.2 .slash (by decide))] at reached
      refine ⟨alternative, rest, shorter, reached, ?_⟩
      intro older limit restShorter
      refine ⟨restShorter, ?_⟩
      exact parseAlternatives_stop (ends.2 .comma (by decide)) older alternative restShorter
  | .cons alternative others =>
      obtain ⟨middle, readAlternative, readStep⟩ := reads_append_iff.1 read
      obtain ⟨inner, readComma, readOthers⟩ := reads_cons_iff.1 readStep
      have alternativeEnds :=
        Node.endsBefore_of_reads alternative readStep (by decide) (by decide)
      obtain ⟨shorter, reached⟩ :=
        parseSelector_of_reads alternative readAlternative alternativeEnds.1
      rw [parseSteps_stop (alternativeEnds.2 .slash (by decide))] at reached
      obtain ⟨_, separating⟩ := accept?_of_reads readComma
      obtain ⟨next, afterNext, nextRead, headed, continued⟩ :=
        parseAlternatives_of_reads others readOthers ends
      -- Each round puts one more alternative in front, so the statement is for all that are older.
      refine ⟨alternative, middle, shorter, reached, ?_⟩
      intro older limit middleShorter
      rw [parseAlternatives_step separating headed older alternative middleShorter]
      exact continued (alternative :: older) _
termination_by (sizeOf selection, 0)

end

/-! ## The whole stream -/

/-- A tree that was read carries the tokens of the stream; an error is the error of the scan. -/
theorem parse_accounts
    (stream : TokenStream) :
    match stream.parse with
    | .ok selection => stream.tokens = selection.tokens
    | .error error => stream.scan = some error := by
  unfold parse
  have account := parseSelection_accounts stream
  cases selected : stream.parseSelection with
  | error failure =>
      rw [selected] at account
      exact account.scanFrom_of_error 0
  | ok parsed =>
      obtain ⟨selection, ⟨lexemes, eof⟩, shorter⟩ := parsed
      rw [selected] at account
      obtain ⟨reads, ends⟩ := account.reads_of_ok
      cases lexemes with
      | nil =>
          show stream.tokens = selection.tokens
          rw [reads.tokens_eq]
          exact List.append_nil selection.tokens
      | cons lexeme lexemes =>
          show stream.scanFrom {} = some (errorHere ⟨lexeme :: lexemes, eof⟩ .separatorOrEnd)
          rw [scanFrom_of_reads reads (selection.steps?_tokens 0)]
          exact scanFrom_of_endsBefore ends (fun _ => rfl) nofun

/-- A stream is read as a tree exactly if it carries the tokens that the tree is written with. -/
theorem parse_eq_ok_iff_tokens
    {stream : TokenStream}
    {selection : Selection} :
    stream.parse = .ok selection ↔ stream.tokens = selection.tokens := by
  constructor
  · intro parsed
    have account := stream.parse_accounts
    rwa [parsed] at account
  · intro written
    have nothingLeft : selection.EndsBefore ⟨[], stream.eof⟩ := ⟨fun _ => rfl, fun _ _ => rfl⟩
    obtain ⟨shorter, selected⟩ :=
      parseSelection_of_reads selection (reads_tokens_iff.2 written) nothingLeft
    rw [parse, selected]
    rfl

theorem scan_eq_none_of_tokens_eq
    {stream : TokenStream}
    {selection : Selection}
    (written : stream.tokens = selection.tokens) :
    stream.scan = none := by
  rw [scan_eq_scanFrom, scanFrom_eq_none_iff, written]
  refine ⟨_, selection.steps?_tokens 0, ?_⟩
  simpa [ScanState.complete] using selection.ending_ne_needName

theorem parse_eq_error_iff_scan
    {stream : TokenStream}
    {error : SyntaxError} :
    stream.parse = .error error ↔ stream.scan = some error := by
  have account := stream.parse_accounts
  cases parsed : stream.parse with
  | ok selection =>
      rw [parsed] at account
      rw [scan_eq_none_of_tokens_eq account]
      simp
  | error other =>
      rw [parsed] at account
      rw [show stream.scan = some other from account]
      simp

theorem exists_parse_eq_ok_iff_scan
    {stream : TokenStream} :
    (∃ selection, stream.parse = .ok selection) ↔ stream.scan = none := by
  constructor
  · intro accepted
    obtain ⟨selection, parsed⟩ := accepted
    exact scan_eq_none_of_tokens_eq (parse_eq_ok_iff_tokens.1 parsed)
  · intro passed
    cases parsed : stream.parse with
    | ok selection => exact ⟨selection, rfl⟩
    | error error =>
        rw [parse_eq_error_iff_scan, passed] at parsed
        cases parsed

end TokenStream

/-! ## The fields of an error -/

theorem ScanState.complete_eq_true_iff
    {state : ScanState} :
    state.complete = true ↔ state.mode ≠ .needName ∧ state.depth = 0 := by
  simp [complete]

theorem ScanState.complete_eq_false_iff
    {state : ScanState} :
    state.complete = false ↔ state.mode = .needName ∨ state.depth ≠ 0 := by
  simp [complete, Decidable.or_iff_not_imp_left]

theorem ScanState.expected_text
    (state : ScanState) :
    state.expected.text
      = if state.mode = .needName then "a field name"
        else if 0 < state.depth then "`)`"
        else "`,`, `/` or end of input" := by
  obtain ⟨mode, depth⟩ := state
  by_cases needed : mode = .needName
  · rw [if_pos needed, needed]
    rfl
  · rw [expected_of_named depth needed, if_neg needed]
    cases depth with
    | zero => rfl
    | succ depth => rfl

/-- The parser and the scan give the same verdict on every stream. A stream is accepted exactly if
the scan gets through it to a state in which it may end. Else the error is that of the scan: at the
first lexeme that the scan refuses, or at the end, for want of what the scan needs there. -/
theorem TokenStream.parse_agrees_with_scan
    (stream : TokenStream) :
    ((∃ selection, stream.parse = .ok selection)
        ↔ ∃ final, ScanState.steps? {} stream.tokens = some final
            ∧ final.mode ≠ .needName ∧ final.depth = 0)
      ∧ (∀ error, stream.parse = .error error ↔ stream.scan = some error)
      ∧ ∀ error, stream.parse = .error error →
          ∃ before after state,
            stream.lexemes = before ++ after
              ∧ ScanState.steps? {} (before.map Lexeme.token) = some state
              ∧ error.expected.text
                = (if state.mode = .needName then "a field name"
                  else if 0 < state.depth then "`)`"
                  else "`,`, `/` or end of input")
              ∧ match after with
                | ⟨token, offset⟩ :: _ =>
                    state.step? token = none
                      ∧ error.found.text = token.describe
                      ∧ error.offset = offset
                | [] =>
                    (state.mode = .needName ∨ state.depth ≠ 0)
                      ∧ error.found.text = "end of input"
                      ∧ error.offset = stream.eof := by
  refine ⟨?_, fun _ => parse_eq_error_iff_scan, ?_⟩
  · rw [exists_parse_eq_ok_iff_scan, scan_eq_scanFrom, scanFrom_eq_none_iff]
    simp only [ScanState.complete_eq_true_iff]
  · intro error failed
    rw [parse_eq_error_iff_scan, scan_eq_scanFrom, scanFrom_eq_some_iff] at failed
    obtain ⟨tokens, rest, state, ⟨before, rfl, rfl⟩, led, refuses, rfl⟩ := failed
    refine ⟨before, rest.lexemes, state, rfl, led, state.expected_text, ?_⟩
    obtain ⟨lexemes, eof⟩ := rest
    cases lexemes with
    | cons lexeme after => exact ⟨refuses, rfl, rfl⟩
    | nil => exact ⟨ScanState.complete_eq_false_iff.1 refuses, rfl, rfl⟩

theorem TokenStream.parse_agrees_with_scan_within_parentheses :
    TokenStream.parse
        ⟨[⟨.word "", 4⟩, ⟨.openParen, 4⟩, ⟨.word "x,y", 7⟩, ⟨.wildcard, 3⟩, ⟨.comma, 8⟩], 1⟩
        = .error ⟨3, .closeParen, .token .wildcard⟩
      ∧ ∃ before token after state,
          [⟨.word "", 4⟩, ⟨.openParen, 4⟩, ⟨.word "x,y", 7⟩, ⟨.wildcard, 3⟩, ⟨.comma, 8⟩]
              = before ++ ⟨token, 3⟩ :: after
            ∧ ScanState.steps? {} (before.map Lexeme.token) = some state
            ∧ state.step? token = none := by
  have agreed := TokenStream.parse_agrees_with_scan
    ⟨[⟨.word "", 4⟩, ⟨.openParen, 4⟩, ⟨.word "x,y", 7⟩, ⟨.wildcard, 3⟩, ⟨.comma, 8⟩], 1⟩
  have failed := (agreed.2.1 ⟨3, .closeParen, .token .wildcard⟩).2 rfl
  refine ⟨failed, ?_⟩
  obtain ⟨before, after, state, split, led, -, stopped⟩ := agreed.2.2 _ failed
  cases after with
  | nil => exact absurd stopped.2.1 (by decide)
  | cons lexeme after =>
      obtain ⟨token, offset⟩ := lexeme
      obtain ⟨refused, -, place⟩ := stopped
      rw [← place] at split
      exact ⟨before, token, after, state, split, led, refused⟩

end FieldSelection
