import FieldSelection.Proofs.Node.Printing
import Mathlib.Data.List.Induction

/-!
Contract: printing into a sink that refuses a part ends with that part.

Owns:
- `Node.parts`, the parts of a node in printed order, and `Sink.offerAll`, the loop over
  parts that ends at the first refusal;
- printing as that loop, for every sink and every state of it;
- `Sink.judged`, the sink that remembers all that it was offered, and `TakesAll`, the
  parts of which it refuses none;
- `Sink.fits`, by which a sink of limited size takes or refuses, and how far it is filled.

Does not own: the order of the tokens (`FieldSelection.Proofs.Node.Printing`).

The visitor goes through the whole tree whatever the sink answers. That a refusal is the
end is due to the mark of the printing alone: once it is off, a token changes nothing.
-/

set_option autoImplicit false

namespace FieldSelection

/-- The parts of a node in printed order: its words, wildcards and punctuation. -/
def Node.parts {shape : Shape} (node : Node shape) : List String :=
  node.tokens.map Token.spelling

/-- Offers parts one after another until one is refused; the answer is whether all were taken. -/
def Sink.offerAll {σ : Type} (sink : Sink σ) : List String → StateM σ Bool
  | [] => pure true
  | part :: later => do
    if ← sink part then sink.offerAll later else pure false

/-- The sink that takes or refuses a part by all parts that it was offered so far, and knows them. -/
def Sink.judged (accepts : List String → Bool) : Sink (List String) := fun part offered =>
  (accepts (offered ++ [part]), offered ++ [part])

/-! ## Printing is a loop that a refusal ends -/

section Printing

variable {σ : Type} (sink : Sink σ)

theorem Sink.offerAll_of_taken
    {part : String}
    {later : List String}
    {state next : σ}
    (taken : sink part state = (true, next)) :
    sink.offerAll (part :: later) state = sink.offerAll later next := by
  show (if (sink part state).1 then sink.offerAll later else pure false) (sink part state).2 = _
  rw [taken]
  rfl

theorem Sink.offerAll_of_refused
    {part : String}
    {later : List String}
    {state next : σ}
    (refused : sink part state = (false, next)) :
    sink.offerAll (part :: later) state = (false, next) := by
  show (if (sink part state).1 then sink.offerAll later else pure false) (sink part state).2 = _
  rw [refused]
  rfl

/-- After a refusal the sink is offered nothing. -/
theorem Sink.forM_offer_of_refused
    (tokens : List Token)
    (state : σ) :
    (tokens.forM sink.offer ⟨state, false⟩).2 = ⟨state, false⟩ := by
  induction tokens with
  | nil => rfl
  | cons token later inductionHypothesis => exact inductionHypothesis

theorem Sink.forM_offer_of_intact
    (tokens : List Token)
    (state : σ) :
    (tokens.forM sink.offer ⟨state, true⟩).2
      = ⟨(sink.offerAll (tokens.map Token.spelling) state).2,
          (sink.offerAll (tokens.map Token.spelling) state).1⟩ := by
  induction tokens generalizing state with
  | nil => rfl
  | cons token later inductionHypothesis =>
      rw [List.map_cons]
      show (later.forM sink.offer
        ⟨(sink token.spelling state).2, (sink token.spelling state).1⟩).2 = _
      rcases answer : sink token.spelling state with ⟨taken, next⟩
      cases taken with
      | true =>
          rw [sink.offerAll_of_taken answer]
          exact inductionHypothesis next
      | false =>
          rw [sink.offerAll_of_refused answer]
          exact sink.forM_offer_of_refused later next

/-- Printing offers the parts one after another until one is refused. -/
theorem Node.print_eq_offerAll
    {shape : Shape}
    (node : Node shape) :
    node.print sink = sink.offerAll node.parts := by
  funext state
  unfold Node.print
  rw [Sink.run_printer, sink.forM_offer_of_intact]
  rfl

end Printing

theorem Node.join_parts
    {shape : Shape}
    (node : Node shape) :
    String.join node.parts = node.render :=
  node.render_eq_textOf.symm

/-! ## The first refusal -/

/-- Every one of the parts is taken when it is offered after the ones before it. -/
def TakesAll (accepts : List String → Bool) (parts : List String) : Prop :=
  ∀ front, front ≠ [] → front <+: parts → accepts front = true

section Refusals

variable (accepts : List String → Bool)

theorem takesAll_nil : TakesAll accepts [] := by
  intro front nonempty isFront
  exact absurd (List.prefix_nil.1 isFront) nonempty

theorem takesAll_concat_iff
    {front : List String}
    {part : String} :
    TakesAll accepts (front ++ [part])
      ↔ TakesAll accepts front ∧ accepts (front ++ [part]) = true := by
  constructor
  · intro taken
    refine ⟨?_, taken _ (by simp) List.prefix_rfl⟩
    intro earlier nonempty isFront
    exact taken earlier nonempty (isFront.trans (List.prefix_append _ _))
  · intro taken earlier nonempty isFront
    rcases List.prefix_concat_iff.1 isFront with whole | isFront
    · rw [whole]
      exact taken.2
    · exact taken.1 earlier nonempty isFront

/-- Either all parts are taken or one of them is the first that is not. -/
theorem takesAll_or_exists_first_refused
    (parts : List String) :
    TakesAll accepts parts
      ∨ ∃ front part later, parts = front ++ part :: later
          ∧ TakesAll accepts front ∧ accepts (front ++ [part]) = false := by
  induction parts using List.reverseRecOn with
  | nil => exact .inl (takesAll_nil accepts)
  | append_singleton front part inductionHypothesis =>
      rcases inductionHypothesis with taken | ⟨earlier, refused, later, split, first⟩
      · cases verdict : accepts (front ++ [part]) with
        | true => exact .inl ((takesAll_concat_iff accepts).2 ⟨taken, verdict⟩)
        | false => exact .inr ⟨front, part, [], rfl, taken, verdict⟩
      · refine .inr ⟨earlier, refused, later ++ [part], ?_, first⟩
        rw [split, List.append_assoc, List.cons_append]

/-- Parts that are taken are passed, and are what was offered before the later ones. -/
theorem Sink.offerAll_judged_append
    {front : List String}
    (later : List String)
    (taken : TakesAll accepts front) :
    (Sink.judged accepts).offerAll (front ++ later) []
      = (Sink.judged accepts).offerAll later front := by
  induction front using List.reverseRecOn generalizing later with
  | nil => rfl
  | append_singleton front part inductionHypothesis =>
      have verdicts := (takesAll_concat_iff accepts).1 taken
      have takenNext : Sink.judged accepts part front = (true, front ++ [part]) := by
        unfold Sink.judged
        rw [verdicts.2]
      rw [List.append_assoc, inductionHypothesis _ verdicts.1, List.singleton_append,
        Sink.offerAll_of_taken _ takenNext]

theorem Sink.offerAll_judged_of_takesAll
    {parts : List String}
    (taken : TakesAll accepts parts) :
    (Sink.judged accepts).offerAll parts [] = (true, parts) := by
  have passed := Sink.offerAll_judged_append accepts [] taken
  rw [List.append_nil] at passed
  exact passed

theorem Sink.offerAll_judged_of_refused
    {front : List String}
    {part : String}
    (later : List String)
    (taken : TakesAll accepts front)
    (refused : accepts (front ++ [part]) = false) :
    (Sink.judged accepts).offerAll (front ++ part :: later) [] = (false, front ++ [part]) := by
  rw [Sink.offerAll_judged_append accepts _ taken]
  apply Sink.offerAll_of_refused
  unfold Sink.judged
  rw [refused]

end Refusals

/-! ## Sinks of limited size -/

/-- Whether parts, put together, are no longer than a sink of limited size. -/
def Sink.fits (cap : Nat) (parts : List String) : Bool :=
  (String.join parts).utf8ByteSize ≤ cap

/-- Where all parts fit, so do the first ones. -/
theorem Sink.fits_of_prefix
    {cap : Nat}
    {front parts : List String}
    (isFront : front <+: parts)
    (within : Sink.fits cap parts = true) :
    Sink.fits cap front = true := by
  obtain ⟨later, rfl⟩ := isFront
  unfold Sink.fits at within ⊢
  rw [String.join_append, String.utf8ByteSize_append] at within
  simp only [decide_eq_true_eq] at within ⊢
  omega

theorem Sink.takesAll_fits_iff
    {cap : Nat}
    {parts : List String} :
    TakesAll (Sink.fits cap) parts ↔ Sink.fits cap parts = true := by
  constructor
  · intro taken
    by_cases empty : parts = []
    · rw [empty]
      unfold Sink.fits
      simp
    · exact taken parts empty List.prefix_rfl
  · intro within front _ isFront
    exact Sink.fits_of_prefix isFront within

/-- A sink of limited size that holds some parts takes one more exactly if it fits behind them. -/
theorem Sink.capped_join
    (cap : Nat)
    (front : List String)
    (part : String) :
    Sink.capped cap part { written := String.join front }
      = if Sink.fits cap (front ++ [part]) = true then
          (true, { written := String.join (front ++ [part]) })
        else
          (false, { written := String.join front, refused := 1 }) := by
  have joined : String.join (front ++ [part]) = String.join front ++ part := by
    simp [String.join_append]
  unfold Sink.capped Sink.fits
  rw [joined, String.utf8ByteSize_append]
  simp only [decide_eq_true_eq]

/-- Parts that fit are written, and leave the sink to the later ones. -/
theorem Sink.offerAll_capped_append
    {cap : Nat}
    {front : List String}
    (later : List String)
    (within : TakesAll (Sink.fits cap) front) :
    (Sink.capped cap).offerAll (front ++ later) {}
      = (Sink.capped cap).offerAll later { written := String.join front } := by
  induction front using List.reverseRecOn generalizing later with
  | nil => rfl
  | append_singleton front part inductionHypothesis =>
      have verdicts := (takesAll_concat_iff _).1 within
      have taken := Sink.capped_join cap front part
      rw [if_pos verdicts.2] at taken
      rw [List.append_assoc, inductionHypothesis _ verdicts.1, List.singleton_append,
        Sink.offerAll_of_taken _ taken]

/-- A sink of limited size is filled with the longest front of the parts that fits, and refuses one
part if there are more. -/
theorem Sink.offerAll_capped
    (cap : Nat)
    (parts : List String) :
    ∃ front, front <+: parts ∧ Sink.fits cap front = true
      ∧ (∀ other, other <+: parts → Sink.fits cap other = true → other <+: front)
      ∧ (Sink.capped cap).offerAll parts {}
          = (Sink.fits cap parts,
              ⟨String.join front, if Sink.fits cap parts = true then 0 else 1⟩) := by
  rcases takesAll_or_exists_first_refused (Sink.fits cap) parts with
    within | ⟨front, part, later, rfl, within, exceeds⟩
  · have filled := Sink.offerAll_capped_append [] within
    rw [List.append_nil] at filled
    have allFit := Sink.takesAll_fits_iff.1 within
    refine ⟨parts, List.prefix_rfl, allFit, fun other isFront _ => isFront, ?_⟩
    rw [filled, allFit]
    rfl
  · have tooMuch : ∀ other, front ++ [part] <+: other → Sink.fits cap other = false := by
      intro other longer
      cases verdict : Sink.fits cap other with
      | true => exact absurd (Sink.fits_of_prefix longer verdict) (by rw [exceeds]; decide)
      | false => rfl
    have isFront : front ++ [part] <+: front ++ part :: later := ⟨later, by simp⟩
    refine ⟨front, List.prefix_append _ _, Sink.takesAll_fits_iff.1 within, ?_, ?_⟩
    · intro other otherFront otherFits
      rcases List.prefix_or_prefix_of_prefix otherFront isFront with shorter | longer
      · rcases List.prefix_concat_iff.1 shorter with whole | shorter
        · rw [whole, exceeds] at otherFits
          cases otherFits
        · exact shorter
      · rw [tooMuch other longer] at otherFits
        cases otherFits
    · have refused := Sink.capped_join cap front part
      rw [exceeds] at refused
      rw [Sink.offerAll_capped_append _ within, Sink.offerAll_of_refused _ refused,
        tooMuch _ isFront]
      rfl

/-! ## Printing -/

/-- A sink that judges each part by all that it was offered is offered the parts of the node in
printed order up to the first that it refuses, and all of them if it refuses none; the answer is no
exactly if one is refused. A sink of limited size ends up with the longest front of the parts whose
bytes are within the limit, having refused at most one part; the answer is yes exactly if the whole
text is within the limit. -/
theorem Node.print_ends_at_first_refusal
    {shape : Shape}
    (node : Node shape) :
    (∀ accepts : List String → Bool,
        (TakesAll accepts node.parts → node.print (Sink.judged accepts) [] = (true, node.parts))
          ∧ (∀ front part later, node.parts = front ++ part :: later → TakesAll accepts front →
              accepts (front ++ [part]) = false →
              node.print (Sink.judged accepts) [] = (false, front ++ [part]))
          ∧ ((node.print (Sink.judged accepts) []).1 = false
              ↔ ∃ offered, offered ≠ [] ∧ offered <+: node.parts ∧ accepts offered = false))
      ∧ ∀ cap : Nat, ∃ front, front <+: node.parts
          ∧ (String.join front).utf8ByteSize ≤ cap
          ∧ (∀ other, other <+: node.parts → (String.join other).utf8ByteSize ≤ cap →
              other <+: front)
          ∧ (node.print (Sink.capped cap) {}).2.written = String.join front
          ∧ (node.print (Sink.capped cap) {}).2.refused
              = (if (node.print (Sink.capped cap) {}).1 = true then 0 else 1)
          ∧ ((node.print (Sink.capped cap) {}).1 = true ↔ node.render.utf8ByteSize ≤ cap) := by
  constructor
  · intro accepts
    rw [node.print_eq_offerAll]
    refine ⟨Sink.offerAll_judged_of_takesAll accepts, ?_, ?_⟩
    · intro front part later split taken refused
      rw [split]
      exact Sink.offerAll_judged_of_refused accepts later taken refused
    · rcases takesAll_or_exists_first_refused accepts node.parts with
        taken | ⟨front, part, later, split, taken, refused⟩
      · rw [Sink.offerAll_judged_of_takesAll accepts taken]
        simp only [Bool.true_eq_false, false_iff]
        rintro ⟨offered, nonempty, isFront, refused⟩
        rw [taken offered nonempty isFront] at refused
        cases refused
      · rw [split, Sink.offerAll_judged_of_refused accepts later taken refused]
        simp only [true_iff]
        exact ⟨front ++ [part], by simp, ⟨later, by simp⟩, refused⟩
  · intro cap
    obtain ⟨front, isFront, frontFits, longest, filled⟩ := Sink.offerAll_capped cap node.parts
    unfold Sink.fits at frontFits longest filled
    simp only [decide_eq_true_eq, node.join_parts] at frontFits longest filled
    rw [node.print_eq_offerAll, filled]
    refine ⟨front, isFront, frontFits, longest, rfl, ?_, ?_⟩
    · simp only [decide_eq_true_eq]
    · simp only [decide_eq_true_eq]

/-- The third part is too long; the shorter ones behind it are not offered any more. -/
theorem Node.print_ends_at_first_refusal_long_part :
    let node : Selection :=
      .cons (.ofField (.ofName (.ofWord (.literal "a"))))
        (.cons (.ofField (.ofName (.ofWord (.literal "bb"))))
          (.only (.ofField (.ofName (.ofWord (.literal "c"))))))
    let accepts : List String → Bool := fun offered => offered.all (·.utf8ByteSize ≤ 1)
    node.parts = ["a", ","] ++ "bb" :: [",", "c"]
      ∧ TakesAll accepts ["a", ","]
      ∧ node.print (Sink.judged accepts) [] = (false, ["a", ",", "bb"]) := by
  intro node accepts
  have taken : TakesAll accepts ([] ++ ["a"] ++ [","]) := by
    rw [takesAll_concat_iff, takesAll_concat_iff]
    exact ⟨⟨takesAll_nil accepts, by decide⟩, by decide⟩
  have split : node.parts = ["a", ","] ++ "bb" :: [",", "c"] := rfl
  have printed := (node.print_ends_at_first_refusal.1 accepts).2.1 ["a", ","] "bb" [",", "c"]
    split taken (by decide)
  exact ⟨split, taken, printed⟩

end FieldSelection
