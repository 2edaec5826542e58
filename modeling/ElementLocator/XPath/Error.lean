import ElementLocator.XPath.Token

/-!
# Errors of XPath queries

Why a query is not a location path, and at which byte that shows.
-/

namespace ElementLocator.XPath

/-- Why a query is not a location path. A token that was found instead is absent at the end of the query. -/
inductive Fault where
  | loneExclamation
  | loneColon
  | openLiteral
  | badNumber (text : String)
  | strayCharacter (c : Char)
  | emptyQuery
  | trailing (token : Token)
  | expected (token : Token) (found : Option Token)
  | unknownNodeTest (name : String)
  | attributeStep
  | expectedStep (found : Option Token)
  | unknownAxis (name : String)
  | expectedAttributeName
  | expectedExpression (found : Option Token)
  | unknownFunction (name : String)
  | argumentCount (name : String) (least most given : Nat)
  deriving Repr, DecidableEq

/-- What stands at the place of a fault, in words. -/
def describe : Option Token → String
  | none => "end of expression"
  | some token => "'" ++ token.display ++ "'"

/-- The fault in words. -/
def Fault.message : Fault → String
  | .loneExclamation => "expected '=' after '!'"
  | .loneColon => "namespace prefixes are not supported"
  | .openLiteral => "unterminated string literal"
  | .badNumber text => s!"invalid number '{text}'"
  | .strayCharacter c => s!"unexpected character '{c}'"
  | .emptyQuery => "empty XPath expression"
  | .trailing token => s!"unexpected token '{token.display}' after expression"
  | .expected token found => s!"expected '{token.display}', found {describe found}"
  | .unknownNodeTest name => s!"node test '{name}()' is not supported"
  | .attributeStep => "attribute steps are not supported"
  | .expectedStep found => s!"expected a step, found {describe found}"
  | .unknownAxis name => s!"axis '{name}' is not supported"
  | .expectedAttributeName => "expected attribute name after '@'"
  | .expectedExpression found => s!"expected an expression, found {describe found}"
  | .unknownFunction name => s!"unknown function '{name}'"
  | .argumentCount name least most given => s!"{name}() takes {least}..={most} arguments, got {given}"

/-- A fault and the byte of the query where it shows. -/
structure Error where
  fault : Fault
  position : Nat
  deriving Repr, DecidableEq

/-- The error in words. -/
def Error.message (e : Error) : String := s!"{e.fault.message} at offset {e.position}"

end ElementLocator.XPath
