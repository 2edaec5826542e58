import ElementLocator.Text.Ascii

/-!
# HTML tokens

A text of markup is a sequence of tags, comments, declarations and characters. Neighbouring characters form runs of
white space and runs of other characters; the character U+0000 stands alone, because it is often dropped.
-/

namespace ElementLocator.Html

/-- A start tag. Names are in lower case, and each attribute occurs once. -/
structure Tag where
  name : String
  attributes : List (String × String) := []
  selfClosing : Bool := false
  deriving Repr, DecidableEq

/-- A piece of markup. -/
inductive Token where
  | doctype (oldLayout : Bool)
  | start (tag : Tag)
  | close (name : String)
  | comment (text : String)
  | space (run : List Char)
  | text (run : List Char)
  | null
  | eof
  deriving Repr, DecidableEq

namespace Token

/-- A character in front of tokens; it joins a run of its kind. -/
def consChar (c : Char) (later : List Token) : List Token :=
  if c = '\x00' then null :: later
  else if Text.isSpace c then
    match later with
    | space run :: rest => space (c :: run) :: rest
    | _ => space [c] :: later
  else
    match later with
    | text run :: rest => text (c :: run) :: rest
    | _ => text [c] :: later

/-- Characters as tokens. -/
def ofChars (cs : List Char) : List Token := cs.foldr consChar []

/-- The characters of a token. -/
def chars : Token → List Char
  | space run => run
  | text run => run
  | null => ['\x00']
  | _ => []

end Token

end ElementLocator.Html
