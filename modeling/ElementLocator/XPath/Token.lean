import ElementLocator.Number.Shortest

/-!
# XPath tokens

The tokens of a location path, and the text by which messages show them. A token with the place where it starts
is `Placed`; places are counted in bytes of the UTF-8 form of the query.
-/

namespace ElementLocator.XPath

/-- A token of a location path. -/
inductive Token where
  | slash
  | doubleSlash
  | leftBracket
  | rightBracket
  | leftParen
  | rightParen
  | at
  | comma
  | dot
  | dotDot
  | star
  | equals
  | notEquals
  | colonColon
  | literal (text : String)
  | number (value : Number)
  | name (text : String)
  deriving Repr, DecidableEq

/-- How messages show a token: a literal stands between apostrophes, whatever marks it was written with. -/
def Token.display : Token → String
  | .slash => "/"
  | .doubleSlash => "//"
  | .leftBracket => "["
  | .rightBracket => "]"
  | .leftParen => "("
  | .rightParen => ")"
  | .at => "@"
  | .comma => ","
  | .dot => "."
  | .dotDot => ".."
  | .star => "*"
  | .equals => "="
  | .notEquals => "!="
  | .colonColon => "::"
  | .literal text => "'" ++ text ++ "'"
  | .number value => value.plainText Number.double
  | .name text => text

/-- A token and the byte where it starts. -/
structure Placed where
  token : Token
  offset : Nat
  deriving Repr, DecidableEq

/-- The number of bytes of a text in UTF-8. -/
def byteLength : List Char → Nat
  | [] => 0
  | c :: rest => c.utf8Size + byteLength rest

end ElementLocator.XPath
