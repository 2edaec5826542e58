import ElementLocator.Css.Token.Characters

/-!
# Writing CSS identifiers and strings

A name or a text that is put into a selector is escaped, so that reading the selector gives it back. A character
is escaped by a reverse solidus before it, or by its number in hexadecimal digits with a space after them. The one
character that has no escape is U+0000, for which names get U+FFFD.
-/

namespace ElementLocator.Css

/-- The escape of a character by its number. -/
def numberEscape (c : Char) : List Char := '\\' :: (Nat.toDigits 16 c.toNat ++ [' '])

/-- The control characters of ASCII. -/
def isControl (c : Char) : Bool := c.toNat < 0x20 || c.toNat == 0x7f

/-- A character of a name in its written form. -/
def writeNameChar (c : Char) : List Char :=
  if isNameChar c then [c]
  else if c = '\x00' then [replacement]
  else if isControl c then numberEscape c
  else ['\\', c]

/-- The written form of characters inside an identifier. -/
def writeName (cs : List Char) : List Char := cs.flatMap writeNameChar

/-- The written form of an identifier from its first character on, leading hyphens set aside: a digit there would
start a number, so it is escaped. -/
def writeStart : List Char → List Char
  | [] => []
  | c :: rest => if c.isDigit then numberEscape c ++ writeName rest else writeName (c :: rest)

/-- The written form of an identifier. -/
def writeIdentifier : List Char → List Char
  | '-' :: '-' :: rest => '-' :: '-' :: writeName rest
  | ['-'] => ['\\', '-']
  | '-' :: rest => '-' :: writeStart rest
  | cs => writeStart cs

/-- A character of a string between apostrophes in its written form. -/
def writeStringChar (c : Char) : List Char :=
  if c = '\\' ∨ c = '\'' then ['\\', c]
  else if isControl c then numberEscape c
  else [c]

/-- The written form of a string. -/
def writeString (cs : List Char) : List Char := '\'' :: (cs.flatMap writeStringChar ++ ['\''])

end ElementLocator.Css
