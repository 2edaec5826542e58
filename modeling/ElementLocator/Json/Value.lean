import ElementLocator.Text.Hex

/-!
# JSON values and their text

The values that this library writes: booleans, strings, arrays and objects with their members in order. A value
has a compact text without any white space, and an indented one with two spaces for each level.
-/

namespace ElementLocator

/-- A JSON value. -/
inductive Json where
  | boolean (value : Bool)
  | string (text : String)
  | array (items : List Json)
  | object (members : List (String × Json))

namespace Json

/-- A character as it stands inside a string literal: the quotation mark, the reverse solidus and the control
characters are escaped, and everything else stands for itself. -/
def escape (c : Char) : List Char :=
  match c with
  | '"' => ['\\', '"']
  | '\\' => ['\\', '\\']
  | '\n' => ['\\', 'n']
  | '\r' => ['\\', 'r']
  | '\t' => ['\\', 't']
  | '\x08' => ['\\', 'b']
  | '\x0c' => ['\\', 'f']
  | c =>
    if c.toNat < 0x20 then ['\\', 'u', '0', '0', Text.hexDigit (c.toNat / 16), Text.hexDigit (c.toNat % 16)]
    else [c]

/-- The string literal for a text. -/
def quote (s : String) : String := String.ofList ('"' :: (s.toList.flatMap escape ++ ['"']))

mutual

/-- The text of a value without white space. -/
def compact : Json → String
  | .boolean value => if value then "true" else "false"
  | .string text => quote text
  | .array items => "[" ++ ",".intercalate (compactItems items) ++ "]"
  | .object members => "\x7b" ++ ",".intercalate (compactMembers members) ++ "\x7d"

/-- The compact texts of the items of an array. -/
def compactItems : List Json → List String
  | [] => []
  | item :: rest => compact item :: compactItems rest

/-- The compact texts of the members of an object. -/
def compactMembers : List (String × Json) → List String
  | [] => []
  | (key, value) :: rest => (quote key ++ ":" ++ compact value) :: compactMembers rest

end

/-- The start of a line at the given level. -/
def lineStart (level : Nat) : String := "\n" ++ String.ofList (List.replicate (2 * level) ' ')

/-- Parts between two brackets, each on a line of its own one level deeper; nothing stands between the brackets
if there is no part. -/
def bracket (opening closing : String) (level : Nat) (parts : List String) : String :=
  if parts.isEmpty then opening ++ closing
  else opening ++ ",".intercalate (parts.map (lineStart (level + 1) ++ ·)) ++ lineStart level ++ closing

mutual

/-- The indented text of a value that starts at the given level. -/
def indented (level : Nat) : Json → String
  | .boolean value => if value then "true" else "false"
  | .string text => quote text
  | .array items => bracket "[" "]" level (indentedItems (level + 1) items)
  | .object members => bracket "\x7b" "\x7d" level (indentedMembers (level + 1) members)

/-- The indented texts of the items of an array. -/
def indentedItems (level : Nat) : List Json → List String
  | [] => []
  | item :: rest => indented level item :: indentedItems level rest

/-- The indented texts of the members of an object. -/
def indentedMembers (level : Nat) : List (String × Json) → List String
  | [] => []
  | (key, value) :: rest =>
    (quote key ++ ": " ++ indented level value) :: indentedMembers level rest

end

/-- The indented text of a value that stands alone. -/
def pretty (value : Json) : String := value.indented 0

end Json

end ElementLocator
