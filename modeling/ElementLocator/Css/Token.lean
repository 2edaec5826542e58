import ElementLocator.Number.Shortest
import ElementLocator.Text.Quoted

/-!
# CSS tokens

The tokens of CSS text without its comments, and the text by which messages about selectors show them. Values of
numbers are single-precision; a number that was written without a point and an exponent also has its value as an
integer.
-/

namespace ElementLocator.Css

/-- How an attribute selector compares the value of the attribute with its own. -/
inductive AttributeOperator where
  | equals
  | includes
  | dash
  | starts
  | ends
  | contains
  deriving Repr, DecidableEq

/-- A number as it was written: with a sign or not, its value, and its value as a 32-bit integer if it was written
as one. A percentage has the value divided by one hundred. -/
structure Numeric where
  signed : Bool
  value : Number
  integer : Option Int
  deriving Repr, DecidableEq

/-- A token of CSS text. -/
inductive Token where
  | ident (name : String)
  | atKeyword (name : String)
  | hash (name : String)
  | idHash (name : String)
  | quotedString (text : String)
  | badString (text : String)
  | unquotedUrl (text : String)
  | badUrl (text : String)
  | delim (c : Char)
  | number (value : Numeric)
  | percentage (value : Numeric)
  | dimension (value : Numeric) (unit : String)
  | whiteSpace (text : String)
  | colon
  | semicolon
  | comma
  | attributeMatch (operator : AttributeOperator)
  | commentOpen
  | commentClose
  | function (name : String)
  | openParen
  | openSquare
  | openCurly
  | closeParen
  | closeSquare
  | closeCurly
  deriving Repr, DecidableEq

/-- The integer of a number as messages show it. -/
def integerText : Option Int → String
  | none => "None"
  | some n => s!"Some({n})"

/-- The fields of a number as messages show them; `key` names the value. -/
def Numeric.fields (n : Numeric) (key : String) : String :=
  s!"has_sign: {n.signed}, {key}: {n.value.pointedText Number.single (-4)}, int_value: {integerText n.integer}"

/-- A word with fields in braces. -/
def braced (word fields : String) : String := word ++ " \x7b " ++ fields ++ " \x7d"

/-- How messages show a token that compares attributes. -/
def AttributeOperator.display : AttributeOperator → String
  | .equals => "Delim('=')"
  | .includes => "IncludeMatch"
  | .dash => "DashMatch"
  | .starts => "PrefixMatch"
  | .ends => "SuffixMatch"
  | .contains => "SubstringMatch"

/-- How messages show a token. -/
def Token.display : Token → String
  | .ident name => s!"Ident({Text.quoted name})"
  | .atKeyword name => s!"AtKeyword({Text.quoted name})"
  | .hash name => s!"Hash({Text.quoted name})"
  | .idHash name => s!"IDHash({Text.quoted name})"
  | .quotedString text => s!"QuotedString({Text.quoted text})"
  | .badString text => s!"BadString({Text.quoted text})"
  | .unquotedUrl text => s!"UnquotedUrl({Text.quoted text})"
  | .badUrl text => s!"BadUrl({Text.quoted text})"
  | .delim c => s!"Delim({Text.quotedChar c})"
  | .number value => braced "Number" (value.fields "value")
  | .percentage value => braced "Percentage" (value.fields "unit_value")
  | .dimension value unit => braced "Dimension" (value.fields "value" ++ ", unit: " ++ Text.quoted unit)
  | .whiteSpace text => s!"WhiteSpace({Text.quoted text})"
  | .colon => "Colon"
  | .semicolon => "Semicolon"
  | .comma => "Comma"
  | .attributeMatch operator => operator.display
  | .commentOpen => "CDO"
  | .commentClose => "CDC"
  | .function name => s!"Function({Text.quoted name})"
  | .openParen => "ParenthesisBlock"
  | .openSquare => "SquareBracketBlock"
  | .openCurly => "CurlyBracketBlock"
  | .closeParen => "CloseParenthesis"
  | .closeSquare => "CloseSquareBracket"
  | .closeCurly => "CloseCurlyBracket"

/-- The token that ends the block which a token opens. -/
def Token.closing? : Token → Option Token
  | .function _ | .openParen => some .closeParen
  | .openSquare => some .closeSquare
  | .openCurly => some .closeCurly
  | _ => none

/-- The token is white space. -/
def Token.isWhiteSpace : Token → Bool
  | .whiteSpace _ => true
  | _ => false

end ElementLocator.Css
