import ElementLocator.Css.Token

/-!
# Selectors

A selector list holds alternatives. Each of them is a complex selector: compounds joined by combinators, read
from the right, where the last compound is about the element itself. A compound is a list of simple selectors that
must all hold.
-/

namespace ElementLocator.Css

/-- How the element of a compound relates to the element of the compound to its right. -/
inductive Combinator where
  | descendant
  | child
  | nextSibling
  | laterSibling
  deriving Repr, DecidableEq

/-- The places `step * n + offset` for natural `n`, counted from one among the siblings or among those of the same
type, from the first or from the last. -/
structure Nth where
  step : Int
  offset : Int
  ofType : Bool
  fromEnd : Bool
  deriving Repr, DecidableEq

/-- What an attribute selector asks of the value. -/
inductive AttributeTest where
  | exists
  | value (operator : AttributeOperator) (value : String) (ignoreCase : Bool)
  deriving Repr, DecidableEq

mutual

/-- One condition on an element. -/
inductive Simple where
  /-- The element has the tag; the name is kept as it was written. -/
  | type (name : String)
  /-- Every element. -/
  | universal
  /-- The attribute `id` is the name. -/
  | id (name : String)
  /-- The name is one of the class tokens. -/
  | class (name : String)
  /-- An attribute passes a test. An attribute in any namespace is found in none. -/
  | attribute (anyNamespace : Bool) (name : String) (test : AttributeTest)
  /-- The element has one of the places. -/
  | nth (places : Nth)
  /-- The element is the document element. -/
  | root
  /-- The element has neither element children nor text other than white space. -/
  | empty
  /-- The element hosts a shadow tree, which no element does. -/
  | host
  /-- None of the alternatives matches the element. -/
  | not (alternatives : List Complex)

/-- Compounds joined by combinators. -/
inductive Complex where
  | compound (conditions : List Simple)
  | combine (left : Complex) (combinator : Combinator) (conditions : List Simple)

end

/-- The place from the start or the end: `1`, without a step. -/
def Nth.edge (ofType fromEnd : Bool) : Nth := ⟨0, 1, ofType, fromEnd⟩

/-- The alternatives of a selector. -/
abbrev SelectorList := List Complex

end ElementLocator.Css
