/-!
Contract: values as outlines of titled groups, on one line or on many.

Owns:
- `Outline` and `Bracket`;
- `Outline.inline`, everything on one line;
- `Outline.pretty`, each item of a group on a line of its own.

Does not own: what is outlined.
-/

set_option autoImplicit false

namespace FieldSelection

inductive Bracket where
  | round
  | square
  | curly
deriving DecidableEq, Repr

def Bracket.opening : Bracket → String
  | .round => "("
  | .square => "["
  | .curly => " \x7b"

def Bracket.closing : Bracket → String
  | .round => ")"
  | .square => "]"
  | .curly => "\x7d"

/-- What stands, on one line, between a bracket and the items. -/
def Bracket.padding : Bracket → String
  | .curly => " "
  | _ => ""

/-- A value to be shown: a text, a group of items with a title, or an item with a label. -/
inductive Outline where
  | atom (content : String)
  | group (title : String) (bracket : Bracket) (items : List Outline)
  | labelled (label : String) (item : Outline)

namespace Outline

/-- The outline on one line. -/
def inline : Outline → String
  | .atom content => content
  | .group title bracket items =>
    title ++ bracket.opening ++ bracket.padding ++ ", ".intercalate (items.map inline)
      ++ bracket.padding ++ bracket.closing
  | .labelled label item => label ++ ": " ++ item.inline

/-- The outline with each item on its own line, four blanks deeper than its group. -/
def prettyAt (indent : String) : Outline → String
  | .atom content => content
  | .group title bracket items =>
    let deeper := indent ++ "    "
    let lines := items.map fun item => deeper ++ item.prettyAt deeper ++ ",\n"
    title ++ bracket.opening ++ "\n" ++ String.join lines ++ indent ++ bracket.closing
  | .labelled label item => label ++ ": " ++ item.prettyAt indent

def pretty (outline : Outline) : String := outline.prettyAt ""

end Outline

end FieldSelection
