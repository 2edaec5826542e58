import ElementLocator.Css.Error
import ElementLocator.Grammar
import ElementLocator.Scope
import ElementLocator.XPath.Error

/-!
# Errors of locating

Why a node cannot be picked, why a refinement is refused, and why a query cannot be resolved.
-/

namespace ElementLocator.Locator

/-- Why a node cannot be picked. -/
inductive PickFault where
  | notAnElement
  | documentElement
  | detached
  deriving Repr, DecidableEq

/-- The fault in words. -/
def PickFault.message : PickFault → String
  | .notAnElement => "target is not an element"
  | .documentElement => "target is the document element"
  | .detached => "target is not attached to the document"

/-- Why a text is not a query of its grammar. -/
inductive QueryFault where
  | css (error : Css.Error)
  | xpath (error : XPath.Error)
  deriving Repr, DecidableEq

/-- The grammar that the text does not obey. -/
def QueryFault.grammar : QueryFault → Grammar
  | .css _ => .css
  | .xpath _ => .xpath

/-- The fault in words. -/
def QueryFault.message : QueryFault → String
  | .css error => error.message
  | .xpath error => error.message

/-- What can go wrong. -/
inductive Error where
  | invalidPick (fault : PickFault)
  | attributeNotAllowed (name : String)
  | valueNotPresent (name value : String)
  | unknownEntry (scope : Scope) (index : Nat)
  | malformedQuery (query : String) (fault : QueryFault)
  deriving Repr, DecidableEq

/-- The error in words. -/
def Error.message : Error → String
  | .invalidPick fault => "invalid pick: " ++ fault.message
  | .attributeNotAllowed name =>
    "attribute " ++ Text.codeSpan name ++ " is not whitelisted or not present on the node"
  | .valueNotPresent name value =>
    "value " ++ Text.codeSpan value ++ " is not a value of attribute " ++ Text.codeSpan name ++ " on the node"
  | .unknownEntry scope index => s!"no {scope.name} path entry at index {index}"
  | .malformedQuery query fault =>
    s!"malformed {fault.grammar.name} query " ++ Text.codeSpan query ++ ": " ++ fault.message

end ElementLocator.Locator
