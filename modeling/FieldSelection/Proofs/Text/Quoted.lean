import FieldSelection.Text.Quoted
import Mathlib.Tactic.SplitIfs

/-!
Contract: quoting leaves no control character in a text.

Owns:
- `isControl`, the ASCII control characters, and `ControlFree`, the texts without them;
- texts put together, numbers in decimal, and quoted texts, as free of controls.

Does not own: which texts are quoted.
-/

set_option autoImplicit false

namespace FieldSelection

/-- The ASCII control characters. -/
def isControl (character : Char) : Bool := character.toNat < 0x20 || character.toNat = 0x7f

/-- No character of the text is a control character. -/
def ControlFree (text : String) : Prop := ∀ character ∈ text.toList, isControl character = false

instance (text : String) : Decidable (ControlFree text) :=
  List.decidableBAll _ text.toList

theorem controlFree_append_iff
    {front back : String} :
    ControlFree (front ++ back) ↔ ControlFree front ∧ ControlFree back := by
  simp only [ControlFree, String.toList_append, List.forall_mem_append]

/-! ## Numbers -/

theorem isControl_digitChar
    (digit : Nat) :
    isControl (Nat.digitChar digit) = false := by
  have small : ∀ value ∈ List.range 16, isControl (Nat.digitChar value) = false := by decide
  by_cases hexadecimal : digit < 16
  · exact small digit (List.mem_range.2 hexadecimal)
  · have noDigit : Nat.digitChar digit = '*' := by
      unfold Nat.digitChar
      repeat rw [if_neg (by omega)]
    rw [noDigit]
    decide

theorem isControl_of_mem_toDigits
    {base : Nat}
    (proper : 1 < base)
    (number : Nat) :
    ∀ written ∈ Nat.toDigits base number, isControl written = false := by
  intro written member
  rw [Nat.toDigits_eq_if proper] at member
  split at member
  · rw [List.mem_singleton.1 member]
    exact isControl_digitChar number
  · rename_i more
    have smaller : number / base < number := Nat.div_lt_self (by omega) proper
    rcases List.mem_append.1 member with higher | last
    · exact isControl_of_mem_toDigits proper (number / base) written higher
    · rw [List.mem_singleton.1 last]
      exact isControl_digitChar _
termination_by number

theorem controlFree_toString
    (number : Nat) :
    ControlFree (toString number) := by
  intro character member
  rw [Nat.toString_eq_repr, Nat.toList_repr] at member
  exact isControl_of_mem_toDigits (by decide) number character member

/-! ## Quoted texts -/

private theorem isControl_of_all
    {characters : List Char}
    (all : characters.all (!isControl ·) = true) :
    ∀ written ∈ characters, isControl written = false := by
  simpa using all

theorem isControl_of_mem_quoteCharacter
    (character : Char) :
    ∀ written ∈ quoteCharacter character, isControl written = false := by
  unfold quoteCharacter
  split_ifs with marked tab newline carriageReturn null control
  · rcases marked with rfl | rfl
    · exact isControl_of_all (by decide)
    · exact isControl_of_all (by decide)
  · exact isControl_of_all (by decide)
  · exact isControl_of_all (by decide)
  · exact isControl_of_all (by decide)
  · exact isControl_of_all (by decide)
  · -- The code of the character stands between the braces of the escape, in hexadecimal.
    rw [List.forall_mem_append, List.forall_mem_append]
    exact ⟨⟨isControl_of_all (by decide), isControl_of_mem_toDigits (by decide) _⟩,
      isControl_of_all (by decide)⟩
  · rw [not_or, not_or] at control
    simpa [isControl] using And.intro control.1 control.2.1

/-- A quoted text is free of controls, whatever the text. -/
theorem controlFree_quote
    (text : String) :
    ControlFree (quote text) := by
  unfold ControlFree quote
  rw [String.toList_ofList, List.forall_mem_append, List.forall_mem_append, List.forall_mem_flatMap]
  exact ⟨⟨isControl_of_all (by decide),
    fun character _ => isControl_of_mem_quoteCharacter character⟩, isControl_of_all (by decide)⟩

end FieldSelection
