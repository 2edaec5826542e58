import ElementLocator.Number.Shortest
import ElementLocator.Text.Quoted

/-!
# Reading JSON

A reader knows which value it expects, so that a value of another kind is an error at its place. Errors tell the
line and the column, counted in bytes of UTF-8, where reading stopped. A reader takes a cursor, which is the rest
of the text with its position, and hands back a value and the cursor behind it.
-/

namespace ElementLocator.Json

/-- A line, counted from one, and the bytes of it that were read. -/
structure Position where
  line : Nat
  column : Nat
  deriving Repr, DecidableEq

/-- The position one byte further on, where `c` starts with that byte. -/
def Position.intoChar (p : Position) (c : Char) : Position :=
  if c = '\n' then ⟨p.line + 1, 0⟩ else ⟨p.line, p.column + 1⟩

/-- The position behind a character. -/
def Position.pastChar (p : Position) (c : Char) : Position :=
  if c = '\n' then ⟨p.line + 1, 0⟩ else ⟨p.line, p.column + c.utf8Size⟩

/-- The position a number of bytes further on. -/
def Position.ahead (p : Position) : Nat → List Char → Position
  | _, [] => p
  | bytes, c :: rest =>
    if bytes = 0 then p
    else if bytes < c.utf8Size then ⟨p.line, p.column + bytes⟩
    else (p.pastChar c).ahead (bytes - c.utf8Size) rest

/-- The kinds of values as errors name them. -/
inductive Shape where
  | null
  | boolean (value : Bool)
  | integer (value : Int)
  | decimal (value : Number)
  | string (text : String)
  | array
  | object
  deriving Repr, DecidableEq

/-- A value in words. -/
def Shape.describe : Shape → String
  | .null => "null"
  | .boolean value => "boolean " ++ Text.codeSpan (if value then "true" else "false")
  | .integer value => "integer " ++ Text.codeSpan (toString value)
  | .decimal value => "floating point " ++ Text.codeSpan (value.pointedText Number.double (-5))
  | .string text => "string " ++ Text.quoted text
  | .array => "sequence"
  | .object => "map"

/-- Why a text is not the expected value. -/
inductive Fault where
  | endInValue
  | endInList
  | endInObject
  | endInString
  | expectedColon
  | expectedItemOrEnd
  | expectedMemberOrEnd
  | expectedWord
  | expectedValue
  | invalidEscape
  | invalidNumber
  | numberOutOfRange
  | controlCharacter
  | keyNotString
  | loneSurrogate
  | unfinishedPair
  | trailingComma
  | trailingCharacters
  | wrongType (found : Shape) (expected : String)
  | unknownVariant (found : String) (known : List String)
  | duplicateField (name : String)
  deriving Repr, DecidableEq

/-- The fault in words. -/
def Fault.message : Fault → String
  | .endInValue => "EOF while parsing a value"
  | .endInList => "EOF while parsing a list"
  | .endInObject => "EOF while parsing an object"
  | .endInString => "EOF while parsing a string"
  | .expectedColon => "expected " ++ Text.codeSpan ":"
  | .expectedItemOrEnd => "expected " ++ Text.codeSpan "," ++ " or " ++ Text.codeSpan "]"
  | .expectedMemberOrEnd => "expected " ++ Text.codeSpan "," ++ " or " ++ Text.codeSpan "\x7d"
  | .expectedWord => "expected ident"
  | .expectedValue => "expected value"
  | .invalidEscape => "invalid escape"
  | .invalidNumber => "invalid number"
  | .numberOutOfRange => "number out of range"
  | .controlCharacter => "control character (\\u0000-\\u001F) found while parsing a string"
  | .keyNotString => "key must be a string"
  | .loneSurrogate => "lone leading surrogate in hex escape"
  | .unfinishedPair => "unexpected end of hex escape"
  | .trailingComma => "trailing comma"
  | .trailingCharacters => "trailing characters"
  | .wrongType found expected => "invalid type: " ++ found.describe ++ ", expected " ++ expected
  | .unknownVariant found known =>
    "unknown variant " ++ Text.codeSpan found ++ ", expected " ++ " or ".intercalate (known.map Text.codeSpan)
  | .duplicateField name => "duplicate field " ++ Text.codeSpan name

/-- A fault and where reading stopped. -/
structure Error where
  fault : Fault
  position : Position
  deriving Repr, DecidableEq

/-- The error in words. -/
def Error.message (e : Error) : String :=
  e.fault.message ++ s!" at line {e.position.line} column {e.position.column}"

/-- What is still to be read, and where it stands in the text. -/
structure Cursor where
  rest : List Char
  position : Position
  deriving Repr, DecidableEq

/-- Reads a value from the front of a text. -/
abbrev Reader := StateT Cursor (Except Error)

namespace Reader

variable {α : Type}

/-- Stops with a fault behind what was read. -/
def fail (fault : Fault) : Reader α := fun c => .error ⟨fault, c.position⟩

/-- Stops with a fault that the next character shows: the position is behind its first byte. -/
def refuse (fault : Fault) : Reader α := fun c =>
  match c.rest with
  | [] => .error ⟨fault, c.position⟩
  | next :: _ => .error ⟨fault, c.position.intoChar next⟩

/-- The next character, which stays unread. -/
def peek : Reader (Option Char) := fun c => .ok (c.rest.head?, c)

/-- Passes over the next character. -/
def skip : Reader Unit := fun c =>
  match c.rest with
  | [] => .ok ((), c)
  | next :: rest => .ok ((), ⟨rest, c.position.pastChar next⟩)

/-- Passes over the characters of a kind and hands them back. -/
def run (kind : Char → Bool) : Reader (List Char) := fun c =>
  let read := c.rest.takeWhile kind
  .ok (read, ⟨c.rest.dropWhile kind, read.foldl Position.pastChar c.position⟩)

/-- Space, line feed, tab and carriage return. -/
def isBlank (c : Char) : Bool := c == ' ' || c == '\n' || c == '\t' || c == '\r'

/-- The next character that is not blank; the blank ones are passed over. -/
def peekPastBlank : Reader (Option Char) := do
  let _ ← run isBlank
  peek

/-- The first character of a value. -/
def valueStart : Reader Char := do
  match ← peekPastBlank with
  | none => refuse .endInValue
  | some c => pure c

/-- Passes over the letters of a word, of which the first one was read already. -/
def word : List Char → Reader Unit
  | [] => pure ()
  | letter :: letters => do
    match ← peek with
    | none => fail .endInValue
    | some c =>
      if c = letter then
        skip
        word letters
      else refuse .expectedWord

/-- Reads a whole text. Only blank characters may follow the value. -/
def readAll (reader : Reader α) (text : String) : Except Error α := do
  let whole : Reader α := do
    let value ← reader
    match ← peekPastBlank with
    | none => pure value
    | some _ => refuse .trailingCharacters
  let (value, _) ← whole ⟨text.toList, ⟨1, 0⟩⟩
  pure value

end Reader

end ElementLocator.Json
