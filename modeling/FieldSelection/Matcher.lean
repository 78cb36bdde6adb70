import FieldSelection.Matching
import FieldSelection.Node.Digest
import FieldSelection.Node.Dump
import FieldSelection.Node.Printer
import FieldSelection.Parse

/-!
Contract: a selection kept ready to be asked about paths.

Owns:
- `Matcher`, made from a text or from a selection;
- its pattern, its answers, and the record that each answer leaves in the log.

Does not own: the meaning of a selection (`Node.selects`).
-/

set_option autoImplicit false

namespace FieldSelection

structure Matcher where
  selection : Selection
deriving DecidableEq

namespace Matcher

def ofText (text : String) : Except SyntaxError Matcher := (parse text).map Matcher.mk

/-- The selection in its written form. -/
def pattern (matcher : Matcher) : String := matcher.selection.render

def selects (matcher : Matcher) (path : Path) : Bool := matcher.selection.selects path

/-- The component that logs the answers of matchers. -/
def target : String := parseTarget ++ "::matcher"

/-- What the answer on a path leaves in the log. -/
def answerRecord (matcher : Matcher) (path : Path) : LogRecord :=
  let verdict := if matcher.selects path then "selects" else "skips"
  ⟨.trace, target, s!"`{matcher.pattern}` {verdict} {quoteList path}"⟩

/-- Whether the matcher of the written form is equal to this one and is hashed alike. -/
def reparses (matcher : Matcher) : Bool :=
  match ofText matcher.pattern with
  | .ok again =>
    again = matcher && again.selection.hashedLike matcher.selection
  | .error _ => false

def outline (matcher : Matcher) : Outline :=
  .group "Matcher" .curly [.labelled "fields" matcher.selection.outline]

end Matcher

/-- What is logged when a text is read and the paths are then asked about. -/
def sessionRecords (limits : Limits) (text : String) (paths : List Path) : List LogRecord :=
  let answers :=
    match parseWith limits text with
    | .ok selection => paths.map (Matcher.mk selection).answerRecord
    | .error _ => []
  parseRecords limits text ++ answers

end FieldSelection
