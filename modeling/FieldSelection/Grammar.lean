import FieldSelection.Node
import FieldSelection.Token

/-!
Contract: the grammar of selections, as derivations.

Owns:
- the relations "these tokens derive this node" for the four productions

      selection = selector ("," selector)*
      selector  = field ("/" field)*
      field     = name [ "(" selection ")" ]
      name      = word | "*"

  and for the two repetitions in them;
- `Selector.ofSteps`, the selector of a repetition of fields.

Does not own: any way to find a derivation (`FieldSelection.Parser`).

Repetitions derive lists, in order. The tree of a derivation gathers the fields of
a selector to the left and keeps the selectors of a selection as they come.
-/

set_option autoImplicit false

namespace FieldSelection

/-- The selector of a field and the steps after it, gathered to the left. -/
def Selector.ofSteps (head : Field) (steps : List Field) : Selector :=
  steps.foldl (fun init last => .ofChain (.slash init last)) (.ofField head)

inductive DerivesName : List Token → Name → Prop where
  | word (text : String) : DerivesName [.word text] (.ofWord (.literal text))
  | wildcard : DerivesName [.wildcard] (.ofWildcard .star)

mutual

inductive DerivesField : List Token → Field → Prop where
  | bare {tokens : List Token} {name : Name} :
      DerivesName tokens name →
      DerivesField tokens (.ofName name)
  | scoped {nameTokens bodyTokens : List Token} {name : Name} {body : Selection} :
      DerivesName nameTokens name →
      DerivesSelection bodyTokens body →
      DerivesField (nameTokens ++ [.openParen] ++ bodyTokens ++ [.closeParen])
        (.ofSubSelection (.scope name body))

/-- Any number of fields, each after a slash. -/
inductive DerivesSteps : List Token → List Field → Prop where
  | nil : DerivesSteps [] []
  | cons {fieldTokens tokens : List Token} {field : Field} {steps : List Field} :
      DerivesField fieldTokens field →
      DerivesSteps tokens steps →
      DerivesSteps ([.slash] ++ fieldTokens ++ tokens) (field :: steps)

inductive DerivesSelector : List Token → Selector → Prop where
  | steps {headTokens tokens : List Token} {head : Field} {steps : List Field} :
      DerivesField headTokens head →
      DerivesSteps tokens steps →
      DerivesSelector (headTokens ++ tokens) (Selector.ofSteps head steps)

/-- Any number of selectors, each after a comma. -/
inductive DerivesAlternatives : List Token → List Selector → Prop where
  | nil : DerivesAlternatives [] []
  | cons {selectorTokens tokens : List Token} {selector : Selector} {rest : List Selector} :
      DerivesSelector selectorTokens selector →
      DerivesAlternatives tokens rest →
      DerivesAlternatives ([.comma] ++ selectorTokens ++ tokens) (selector :: rest)

inductive DerivesSelection : List Token → Selection → Prop where
  | alternatives {firstTokens tokens : List Token} {first : Selector} {rest : List Selector} :
      DerivesSelector firstTokens first →
      DerivesAlternatives tokens rest →
      DerivesSelection (firstTokens ++ tokens) (Selection.ofList first rest)

end

end FieldSelection
