import ElementLocator.Css.Token.Lexer

/-!
# Component values

A component value is a token, or a block: a token that opens a parenthesis, a bracket, a brace or a function, with
everything up to the token that closes it or to the end of the text. Inside a block the closing tokens of other
kinds of block stand for themselves.
-/

namespace ElementLocator.Css

/-- A token, or a block with the token that opens it and its contents. -/
inductive ComponentValue where
  | single (token : Token)
  | block (opening : Token) (contents : List ComponentValue)

namespace ComponentValue

/-- The first token of a component value. -/
def head : ComponentValue → Token
  | .single token => token
  | .block opening _ => opening

/-- The component value is white space. -/
def isWhiteSpace (v : ComponentValue) : Bool := v.head.isWhiteSpace

/-- The component value is a given token. -/
def isToken (token : Token) : ComponentValue → Bool
  | .single t => t == token
  | .block _ _ => false

/-- Component values up to the closing token or the end of the text, and the tokens behind that. Every step uses
up a token, so their number is a sufficient bound. -/
def gather (closing : Option Token) : Nat → List Token → List ComponentValue × List Token
  | 0, ts => ([], ts)
  | _ + 1, [] => ([], [])
  | bound + 1, t :: rest =>
    if closing = some t then ([], rest)
    else match t.closing? with
      | none =>
        let (values, later) := gather closing bound rest
        (.single t :: values, later)
      | some close =>
        let (contents, afterBlock) := gather (some close) bound rest
        let (values, later) := gather closing bound afterBlock
        (.block t contents :: values, later)

/-- The component values of a list of tokens. -/
def ofTokens (ts : List Token) : List ComponentValue := (gather none ts.length ts).1

/-- The component values of a text. -/
def ofText (s : String) : List ComponentValue := ofTokens (tokens s.toList)

mutual

/-- How deeply blocks are nested in a component value. -/
def depth : ComponentValue → Nat
  | .single _ => 0
  | .block _ contents => depthOf contents + 1

/-- How deeply blocks are nested in component values. -/
def depthOf : List ComponentValue → Nat
  | [] => 0
  | v :: rest => max (depth v) (depthOf rest)

end

/-- The component values without the white space at their front. -/
def skipSpace (vs : List ComponentValue) : List ComponentValue := vs.dropWhile isWhiteSpace

/-- The parts between the commas. -/
def splitAtCommas : List ComponentValue → List (List ComponentValue)
  | [] => [[]]
  | v :: rest =>
    if v.isToken .comma then [] :: splitAtCommas rest
    else match splitAtCommas rest with
      | part :: later => (v :: part) :: later
      | [] => [[v]]

end ComponentValue

end ElementLocator.Css
