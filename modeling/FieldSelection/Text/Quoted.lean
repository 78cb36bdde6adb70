import FieldSelection.Text.Unprinted

/-!
Contract: texts in double quotes, on one line.

Owns:
- `quoteCharacter` and `quote`: the quote, the backslash, the ASCII control characters and
  the characters that do not show are escaped, everything else stands for itself;
- `quoteList`, quoted texts in brackets.

Does not own: reading quoted texts.
-/

set_option autoImplicit false

namespace FieldSelection

/-- How one character is written between quotes. -/
def quoteCharacter (character : Char) : List Char :=
  if character = '"' ∨ character = '\\' then ['\\', character]
  else if character = '\t' then ['\\', 't']
  else if character = '\n' then ['\\', 'n']
  else if character = '\r' then ['\\', 'r']
  else if character = '\x00' then ['\\', '0']
  else if character.toNat < 0x20 ∨ character.toNat = 0x7f ∨ isUnprinted character = true then
    "\\u\x7b".toList ++ Nat.toDigits 16 character.toNat ++ "\x7d".toList
  else [character]

/-- A text in quotes. -/
def quote (text : String) : String :=
  String.ofList (['"'] ++ text.toList.flatMap quoteCharacter ++ ['"'])

/-- Quoted texts in brackets. -/
def quoteList (texts : List String) : String :=
  "[" ++ ", ".intercalate (texts.map quote) ++ "]"

end FieldSelection
