import ElementLocator.Css.Token

/-!
# Errors of selectors

Why a text is not a selector. The token that shows it is part of most faults.
-/

namespace ElementLocator.Css

/-- Why a text is not a selector. -/
inductive Fault where
  | endOfInput
  | unexpected (token : Token)
  | emptySelector
  | danglingCombinator
  | invalidState
  | unsupportedPseudo (name : String)
  | pseudoNeedsName (token : Token)
  | classNeedsName (token : Token)
  | attributeNeedsName (token : Token)
  | unexpectedInAttribute (token : Token)
  | badAttributeValue (token : Token)
  | expectedBar (token : Token)
  | badAttributeName (token : Token)
  | badQualifiedName (token : Token)
  | undeclaredNamespace (name : String)
  deriving Repr, DecidableEq

/-- The fault as messages show it. -/
def Fault.display : Fault → String
  | .endOfInput => "Basic(EndOfInput)"
  | .unexpected token => s!"Basic(UnexpectedToken({token.display}))"
  | .emptySelector => "Custom(EmptySelector)"
  | .danglingCombinator => "Custom(DanglingCombinator)"
  | .invalidState => "Custom(InvalidState)"
  | .unsupportedPseudo name => s!"Custom(UnsupportedPseudoClassOrElement({Text.quoted name}))"
  | .pseudoNeedsName token => s!"Custom(PseudoElementExpectedIdent({token.display}))"
  | .classNeedsName token => s!"Custom(ClassNeedsIdent({token.display}))"
  | .attributeNeedsName token => s!"Custom(NoQualifiedNameInAttributeSelector({token.display}))"
  | .unexpectedInAttribute token => s!"Custom(UnexpectedTokenInAttributeSelector({token.display}))"
  | .badAttributeValue token => s!"Custom(BadValueInAttr({token.display}))"
  | .expectedBar token => s!"Custom(ExpectedBarInAttr({token.display}))"
  | .badAttributeName token => s!"Custom(InvalidQualNameInAttr({token.display}))"
  | .badQualifiedName token => s!"Custom(ExplicitNamespaceUnexpectedToken({token.display}))"
  | .undeclaredNamespace name => s!"Custom(ExpectedNamespace({Text.quoted name}))"

/-- A text that is not a selector, and why. -/
structure Error where
  selector : String
  fault : Fault
  deriving Repr, DecidableEq

/-- The error in words. -/
def Error.message (e : Error) : String :=
  "invalid selector " ++ Text.codeSpan e.selector ++ ": " ++ e.fault.display

end ElementLocator.Css
