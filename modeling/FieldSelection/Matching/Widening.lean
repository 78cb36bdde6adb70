import FieldSelection.Node.Traversal

/-!
Contract: when one tree is at most as wide as another of its shape.

Owns:
- `Node.Below`, the order in which words lie below the wildcard, bare names below
  names with a body, and lists below lists with room for each alternative;
- `Node.Rearranged`, trees whose lists differ in order and repetition only;
- `Folder.starring`, which widens a tree, and `Folder.narrowing`, which narrows it.

Does not own: what the order means for paths.

The order of alternatives and how often each occurs play no part. The folders decide
at each place anew whether to change it, by whatever they have met so far.
-/

set_option autoImplicit false

namespace FieldSelection

/-- The first node is the second, or becomes it by widening some of its parts. -/
inductive Node.Below : {shape : Shape} → Node shape → Node shape → Prop where
  | literal (text : String) : Below (.literal text) (.literal text)
  | star : Below .star .star
  | ofWord {word wider : Word} : Below word wider → Below (.ofWord word) (.ofWord wider)
  | ofWildcard {name : Name} : Below name (.ofWildcard .star)
  | ofName {name wider : Name} : Below name wider → Below (.ofName name) (.ofName wider)
  | opened {name wider : Name} {body : Selection} :
      Below name wider → Below (.ofName name) (.ofSubSelection (.scope wider body))
  | ofSubSelection {subSelection wider : SubSelection} :
      Below subSelection wider → Below (.ofSubSelection subSelection) (.ofSubSelection wider)
  | scope {name widerName : Name} {body widerBody : Selection} :
      Below name widerName →
      Below body widerBody →
      Below (.scope name body) (.scope widerName widerBody)
  | ofField {field wider : Field} : Below field wider → Below (.ofField field) (.ofField wider)
  | ofChain {chain wider : Chain} : Below chain wider → Below (.ofChain chain) (.ofChain wider)
  | slash {init widerInit : Selector} {last widerLast : Field} :
      Below init widerInit →
      Below last widerLast →
      Below (.slash init last) (.slash widerInit widerLast)
  | only {alternative : Selector} {wider : Selection} {among : Selector} :
      among ∈ wider.alternatives →
      Below alternative among →
      Below (.only alternative) wider
  | cons {alternative : Selector} {rest wider : Selection} {among : Selector} :
      among ∈ wider.alternatives →
      Below alternative among →
      Below rest wider →
      Below (.cons alternative rest) wider

/-- The second tree is the first with alternatives of some of its lists, at whatever depth, put in
another order, repeated, or no longer repeated. -/
inductive Node.Rearranged : {shape : Shape} → Node shape → Node shape → Prop where
  | refl {shape : Shape} (node : Node shape) : Rearranged node node
  | trans {shape : Shape} {first second third : Node shape} :
      Rearranged first second → Rearranged second third → Rearranged first third
  | sameAlternatives {left right : Selection} :
      (∀ alternative, alternative ∈ left.alternatives ↔ alternative ∈ right.alternatives) →
      Rearranged left right
  | ofSubSelection {left right : SubSelection} :
      Rearranged left right → Rearranged (.ofSubSelection left) (.ofSubSelection right)
  | scope {name : Name} {left right : Selection} :
      Rearranged left right → Rearranged (.scope name left) (.scope name right)
  | ofField {left right : Field} : Rearranged left right → Rearranged (.ofField left) (.ofField right)
  | ofChain {left right : Chain} : Rearranged left right → Rearranged (.ofChain left) (.ofChain right)
  | slash {left right : Selector} {leftLast rightLast : Field} :
      Rearranged left right →
      Rearranged leftLast rightLast →
      Rearranged (.slash left leftLast) (.slash right rightLast)
  | only {left right : Selector} : Rearranged left right → Rearranged (.only left) (.only right)
  | cons {left right : Selector} {leftRest rightRest : Selection} :
      Rearranged left right →
      Rearranged leftRest rightRest →
      Rearranged (.cons left leftRest) (.cons right rightRest)

section Folders

variable {m : Type → Type} [Monad m]

/-- Puts the wildcard in place of the names that are picked. -/
def Folder.starring (picks : Name → m Bool) : Folder m
  | .name, name, fold => do
    if ← picks name then pure (.ofWildcard .star) else rebuild .name name fold
  | shape, node, fold => rebuild shape node fold

/-- Leaves the bare name of the sub-selections that are closed, and the first alternative of the
folded lists that are cut. -/
def Folder.narrowing (closes : SubSelection → m Bool) (cuts : Selection → m Bool) : Folder m
  | .selection, selection, fold => do
    let folded ← rebuild .selection selection fold
    if ← cuts folded then
      pure (folded.withAlternatives (folded.alternatives.take 1))
    else
      pure folded
  | .field, .ofSubSelection (.scope name body), fold => do
    if ← closes (.scope name body) then
      .ofName <$> fold name Node.nameOfSubSelection_lt
    else
      rebuild .field (.ofSubSelection (.scope name body)) fold
  | shape, node, fold => rebuild shape node fold

end Folders

end FieldSelection
