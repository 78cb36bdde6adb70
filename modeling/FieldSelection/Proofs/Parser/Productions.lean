import FieldSelection.Proofs.Parser.Scanning

/-!
Contract: what each production of the parser reads, and why it fails.

Owns:
- `Node.EndsBefore`, the rests that leave nothing to go on with after a node;
- `TokenStream.AccountsFor`, the contract of a production or a loop on a stream;
- the contract of each production and of both loops.

Does not own: that a production reads whatever can be read
(`FieldSelection.Proofs.Parser.Completeness`).

Main statements: a node that was read is written with exactly the tokens that were
read, and it ends as late as it can. A failure is the error that the scan finds,
whatever the number of parentheses that were open before.
-/

set_option autoImplicit false

namespace FieldSelection

/-- The tokens with which a list of parts goes on. -/
def Shape.separators : Shape → List Token
  | .selection => [.comma, .slash]
  | .selector => [.slash]
  | _ => []

/-- The stream opens no body for the bare name that a node ends with. -/
def Node.ClosedBefore {shape : Shape} (node : Node shape) (rest : TokenStream) : Prop :=
  node.ending = .afterName → rest.accept? .openParen = none

/-- The stream has nothing with which a node would go on. -/
def Node.EndsBefore {shape : Shape} (node : Node shape) (rest : TokenStream) : Prop :=
  node.ClosedBefore rest ∧ ∀ separator ∈ shape.separators, rest.accept? separator = none

theorem Selection.tokens_prepend
    (read : List Selector)
    (selection : Selection) :
    (Selection.prepend read selection).tokens
      = (read.reverse.flatMap fun alternative => alternative.tokens ++ [.comma])
          ++ selection.tokens := by
  induction read generalizing selection with
  | nil => rfl
  | cons alternative older inductionHypothesis =>
      have split := inductionHypothesis (.cons alternative selection)
      simpa [Selection.prepend, Node.tokens] using split

theorem Selection.ending_prepend
    (read : List Selector)
    (selection : Selection) :
    (Selection.prepend read selection).ending = selection.ending := by
  induction read generalizing selection with
  | nil => rfl
  | cons alternative older inductionHypothesis =>
      exact inductionHypothesis (.cons alternative selection)

namespace TokenStream

/-- The contract of an outcome on a stream that was entered with `written` already read and the
scan in `mode`. -/
inductive AccountsFor
    (stream : TokenStream)
    (written : List Token)
    (mode : ScanMode)
    {limit : Nat}
    {shape : Shape} :
    Outcome limit shape → Prop where
  /-- A node is written with what was read, and ends before the rest. -/
  | read {node : Node shape} {rest : TokenStream} {shorter : rest.length < limit}
      {tokens : List Token} :
      stream.Reads tokens rest →
      node.tokens = written ++ tokens →
      node.EndsBefore rest →
      AccountsFor stream written mode (.ok ⟨node, rest, shorter⟩)
  /-- A failure is what the scan reports, at every depth. -/
  | failed {failure : ParseFailure} :
      (∀ depth, stream.scanFrom ⟨mode, depth⟩ = some failure.toError) →
      AccountsFor stream written mode (.error failure)

/-! ## Names -/

theorem reads_of_parseName_eq_ok
    {stream rest : TokenStream}
    {name : Name}
    {shorter : rest.length < stream.length}
    (named : stream.parseName = .ok ⟨name, rest, shorter⟩) :
    stream.Reads name.tokens rest := by
  unfold parseName at named
  split at named
  · rename_i text after shorter taken
    cases named
    exact reads_of_uncons?_eq_some taken
  · rename_i after shorter taken
    cases named
    exact reads_of_uncons?_eq_some taken
  · cases named

theorem scanFrom_of_parseName_eq_error
    {stream : TokenStream}
    {failure : ParseFailure}
    (failed : stream.parseName = .error failure)
    (depth : Nat) :
    stream.scanFrom ⟨.needName, depth⟩ = some failure.toError := by
  obtain ⟨lexemes, eof⟩ := stream
  cases lexemes with
  | nil =>
      cases failed
      exact scanFrom_of_refuses rfl
  | cons lexeme lexemes =>
      obtain ⟨token, offset⟩ := lexeme
      cases token with
      | word text => cases failed
      | wildcard => cases failed
      | comma => cases failed; exact scanFrom_of_refuses rfl
      | slash => cases failed; exact scanFrom_of_refuses rfl
      | openParen => cases failed; exact scanFrom_of_refuses rfl
      | closeParen => cases failed; exact scanFrom_of_refuses rfl

/-! ## Selections within parentheses -/

/-- After a selection that ends before the rest, no token can come but the end of the group. -/
theorem step?_eq_none_of_endsBefore
    {selection : Selection}
    {rest : TokenStream}
    {token : Token}
    {depth : Nat}
    (ends : selection.EndsBefore rest)
    (front : rest.tokens.head? = some token)
    (unclosed : token = .closeParen → depth = 0) :
    ScanState.step? ⟨selection.ending, depth⟩ token = none := by
  obtain ⟨closed, separated⟩ := ends
  have absent : ∀ {other : Token}, rest.accept? other = none → token ≠ other := by
    intro other refused same
    rw [same] at front
    exact accept?_eq_none_iff.1 refused front
  have noComma : token ≠ .comma := absent (separated .comma (by decide))
  have noSlash : token ≠ .slash := absent (separated .slash (by decide))
  have noOpening : selection.ending = .afterName → token ≠ .openParen := by
    intro bare
    exact absent (closed bare)
  have named := selection.ending_ne_needName
  cases ending : selection.ending with
  | needName => contradiction
  | afterName => cases token <;> simp_all [ScanState.step?]
  | afterGroup => cases token <;> simp_all [ScanState.step?]

/-- A selection that ends before the rest is an error there, unless its group ends there, or the
text outside of all groups. -/
theorem scanFrom_of_endsBefore
    {selection : Selection}
    {rest : TokenStream}
    {depth : Nat}
    (ends : selection.EndsBefore rest)
    (unclosed : rest.tokens.head? = some .closeParen → depth = 0)
    (unfinished : rest.tokens = [] → depth ≠ 0) :
    rest.scanFrom ⟨selection.ending, depth⟩
      = some (rest.errorHere (if depth = 0 then .separatorOrEnd else .closeParen)) := by
  have refuses : ScanState.Refuses ⟨selection.ending, depth⟩ rest.tokens := by
    cases front : rest.tokens with
    | nil => simp [ScanState.Refuses, ScanState.complete, unfinished front]
    | cons token tokens =>
        have atFront : rest.tokens.head? = some token := by
          rw [front]
          rfl
        apply step?_eq_none_of_endsBefore ends atFront
        intro closing
        rw [closing] at atFront
        exact unclosed atFront
  rw [scanFrom_of_refuses refuses, ScanState.expected_of_named depth selection.ending_ne_needName]

/-! ## Productions and loops -/

theorem AccountsFor.reads_of_ok
    {stream rest : TokenStream}
    {mode : ScanMode}
    {limit : Nat}
    {shape : Shape}
    {node : Node shape}
    {shorter : rest.length < limit}
    (account : stream.AccountsFor [] mode (.ok ⟨node, rest, shorter⟩)) :
    stream.Reads node.tokens rest ∧ node.EndsBefore rest := by
  cases account with
  | read reads written ends =>
      rw [List.nil_append] at written
      subst written
      exact ⟨reads, ends⟩

theorem AccountsFor.scanFrom_of_error
    {stream : TokenStream}
    {written : List Token}
    {mode : ScanMode}
    {limit : Nat}
    {shape : Shape}
    {failure : ParseFailure}
    (account : stream.AccountsFor written mode (.error failure : Outcome limit shape))
    (depth : Nat) :
    stream.scanFrom ⟨mode, depth⟩ = some failure.toError := by
  cases account with
  | failed scanned => exact scanned depth

/-- What a production read may be passed on to the loop that follows it. -/
theorem AccountsFor.after
    {stream middle : TokenStream}
    {written read : List Token}
    {mode middleMode : ScanMode}
    {limit : Nat}
    {shape : Shape}
    {outcome : Outcome limit shape}
    (account : middle.AccountsFor (written ++ read) middleMode outcome)
    (readBefore : stream.Reads read middle)
    (led : ∀ depth, ScanState.steps? ⟨mode, depth⟩ read = some ⟨middleMode, depth⟩) :
    stream.AccountsFor written mode outcome := by
  cases account with
  | read readAfter written ends =>
      refine .read (readBefore.append readAfter) ?_ ends
      rw [written, List.append_assoc]
  | failed scanned =>
      refine .failed fun depth => ?_
      rw [scanFrom_of_reads readBefore (led depth)]
      exact scanned depth

/-- A failure after the first tokens of a production is a failure of the production. -/
theorem AccountsFor.failed_after
    {stream inner : TokenStream}
    {written read innerWritten : List Token}
    {mode innerMode : ScanMode}
    {limit innerLimit : Nat}
    {shape innerShape : Shape}
    {failure : ParseFailure}
    (account : inner.AccountsFor innerWritten innerMode
      (.error failure : Outcome innerLimit innerShape))
    (readBefore : stream.Reads read inner)
    (led : ∀ depth, ∃ innerDepth,
      ScanState.steps? ⟨mode, depth⟩ read = some ⟨innerMode, innerDepth⟩) :
    stream.AccountsFor written mode (.error failure.commit : Outcome limit shape) := by
  apply AccountsFor.failed
  intro depth
  rcases led depth with ⟨innerDepth, ledDeeper⟩
  rw [scanFrom_of_reads readBefore ledDeeper]
  exact account.scanFrom_of_error innerDepth

-- The induction follows the recursion of the productions, and so does its measure.
mutual

theorem parseField_accounts
    (stream : TokenStream) :
    stream.AccountsFor [] .needName stream.parseField := by
  rw [parseField]
  cases named : stream.parseName with
  | error failure => exact .failed (scanFrom_of_parseName_eq_error named)
  | ok parsedName =>
      obtain ⟨name, afterName, nameRead⟩ := parsedName
      have readName := reads_of_parseName_eq_ok named
      have nameLed := name.steps?_tokens
      rw [Name.ending_eq] at nameLed
      dsimp only
      cases opening : afterName.accept? .openParen with
      | none => exact .read readName rfl ⟨fun _ => opening, nofun⟩
      | some parsedOpening =>
          obtain ⟨inner, opened⟩ := parsedOpening
          have readOpening := accept?_eq_some_iff_reads.1 opening
          have readFront := readName.append readOpening
          have frontLed : ∀ depth, ScanState.steps? ⟨.needName, depth⟩ (name.tokens ++ [.openParen])
              = some ⟨.needName, depth + 1⟩ := by
            intro depth
            rw [ScanState.steps?_append_of_eq_some (nameLed depth)]
            rfl
          have account := parseSelection_accounts inner
          dsimp only
          cases selected : inner.parseSelection with
          | error failure =>
              rw [selected] at account
              exact account.failed_after readFront fun depth => ⟨depth + 1, frontLed depth⟩
          | ok parsedBody =>
              obtain ⟨body, afterBody, bodyRead⟩ := parsedBody
              rw [selected] at account
              obtain ⟨readBody, bodyEnds⟩ := account.reads_of_ok
              dsimp only
              cases closing : afterBody.accept? .closeParen with
              | none =>
                  apply AccountsFor.failed
                  intro depth
                  rw [scanFrom_of_reads readFront (frontLed depth),
                    scanFrom_of_reads readBody (body.steps?_tokens (depth + 1))]
                  apply scanFrom_of_endsBefore bodyEnds
                  · intro closed
                    exact absurd closed (accept?_eq_none_iff.1 closing)
                  · intro _
                    omega
              | some parsedClosing =>
                  obtain ⟨rest, closed⟩ := parsedClosing
                  have readClosing := accept?_eq_some_iff_reads.1 closing
                  have readGroup := readOpening.cons (readBody.append readClosing)
                  exact .read (readName.append readGroup) (Node.tokens_scope name body)
                    ⟨nofun, nofun⟩
termination_by (stream.length, 0)

theorem parseSelector_accounts
    (stream : TokenStream) :
    stream.AccountsFor [] .needName stream.parseSelector := by
  rw [parseSelector]
  have account := parseField_accounts stream
  cases headed : stream.parseField with
  | error failure =>
      rw [headed] at account
      exact .failed account.scanFrom_of_error
  | ok parsedHead =>
      obtain ⟨head, rest, headRead⟩ := parsedHead
      rw [headed] at account
      obtain ⟨readHead, headEnds⟩ := account.reads_of_ok
      -- A field has no separators, so only its closing is left to tell the loop.
      have stepsAccount := parseSteps_accounts rest (.ofField head) headRead headEnds.1
      exact AccountsFor.after stepsAccount readHead head.steps?_tokens
termination_by (stream.length, 1)

theorem parseSteps_accounts
    (stream : TokenStream)
    (init : Selector)
    {limit : Nat}
    (read : stream.length < limit)
    (closed : init.ClosedBefore stream) :
    stream.AccountsFor init.tokens init.ending (stream.parseSteps init read) := by
  rw [parseSteps]
  cases separating : stream.accept? .slash with
  | none =>
      refine .read (Reads.refl stream) (List.append_nil _).symm ⟨closed, ?_⟩
      simpa [Shape.separators] using separating
  | some parsedSlash =>
      obtain ⟨inner, separated⟩ := parsedSlash
      have readSlash := accept?_eq_some_iff_reads.1 separating
      have ledOn := fun depth =>
        ScanState.steps?_separator depth init.ending_ne_needName (.inr rfl)
      have account := parseField_accounts inner
      dsimp only
      cases headed : inner.parseField with
      | error failure =>
          rw [headed] at account
          exact account.failed_after readSlash fun depth => ⟨depth, ledOn depth []⟩
      | ok parsedLast =>
          obtain ⟨last, rest, fieldRead⟩ := parsedLast
          rw [headed] at account
          obtain ⟨readLast, lastEnds⟩ := account.reads_of_ok
          have shorter : rest.length < limit := by omega
          have stepsAccount :=
            parseSteps_accounts rest (.ofChain (.slash init last)) shorter lastEnds.1
          refine AccountsFor.after stepsAccount (readSlash.cons readLast) fun depth => ?_
          rw [ledOn]
          exact last.steps?_tokens depth
termination_by (stream.length, 0)

theorem parseSelection_accounts
    (stream : TokenStream) :
    stream.AccountsFor [] .needName stream.parseSelection := by
  rw [parseSelection]
  have account := parseSelector_accounts stream
  cases headed : stream.parseSelector with
  | error failure =>
      rw [headed] at account
      exact .failed account.scanFrom_of_error
  | ok parsedFirst =>
      obtain ⟨first, rest, firstRead⟩ := parsedFirst
      rw [headed] at account
      obtain ⟨readFirst, firstEnds⟩ := account.reads_of_ok
      have othersAccount := parseAlternatives_accounts rest [] first firstRead firstEnds
      exact AccountsFor.after othersAccount readFirst first.steps?_tokens
termination_by (stream.length, 2)

theorem parseAlternatives_accounts
    (stream : TokenStream)
    (older : List Selector)
    (latest : Selector)
    {limit : Nat}
    (read : stream.length < limit)
    (ends : latest.EndsBefore stream) :
    stream.AccountsFor (Selection.prepend older (.only latest)).tokens latest.ending
      (stream.parseAlternatives older latest read) := by
  rw [parseAlternatives]
  cases separating : stream.accept? .comma with
  | none =>
      refine .read (Reads.refl stream) (List.append_nil _).symm ⟨?_, ?_⟩
      · intro bare
        rw [Selection.ending_prepend] at bare
        exact ends.1 bare
      · -- The loop for steps has stopped before, so no slash follows either.
        have noSlash := ends.2
        simp only [Shape.separators, List.mem_cons, List.not_mem_nil, or_false, forall_eq_or_imp,
          forall_eq] at noSlash ⊢
        exact ⟨separating, noSlash⟩
  | some parsedComma =>
      obtain ⟨inner, separated⟩ := parsedComma
      have readComma := accept?_eq_some_iff_reads.1 separating
      have ledOn := fun depth =>
        ScanState.steps?_separator depth latest.ending_ne_needName (.inl rfl)
      have account := parseSelector_accounts inner
      dsimp only
      cases headed : inner.parseSelector with
      | error failure =>
          rw [headed] at account
          exact account.failed_after readComma fun depth => ⟨depth, ledOn depth []⟩
      | ok parsedNext =>
          obtain ⟨next, rest, selectorRead⟩ := parsedNext
          rw [headed] at account
          obtain ⟨readNext, nextEnds⟩ := account.reads_of_ok
          have shorter : rest.length < limit := by omega
          have othersAccount :=
            parseAlternatives_accounts rest (latest :: older) next shorter nextEnds
          have written : (Selection.prepend (latest :: older) (.only next)).tokens
              = (Selection.prepend older (.only latest)).tokens ++ .comma :: next.tokens := by
            simp [Selection.tokens_prepend, Node.tokens]
          rw [written] at othersAccount
          refine AccountsFor.after othersAccount (readComma.cons readNext) fun depth => ?_
          rw [ledOn]
          exact next.steps?_tokens depth
termination_by (stream.length, 0)

end

end TokenStream

end FieldSelection
