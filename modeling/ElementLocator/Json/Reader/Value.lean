import ElementLocator.Json.Reader.Number
import ElementLocator.Json.Reader.Text

/-!
# Reading JSON values

Readers for values of an expected kind, and one that passes over a value of any kind.
-/

namespace ElementLocator.Json.Reader

variable {α : Type}

/-- Reads enough of a value to say what it is, and stops with the error that something else was expected. -/
def wrongType (expected : String) : Reader α := do
  match ← valueStart with
  | 'n' =>
    skip
    word ['u', 'l', 'l']
    fail (.wrongType .null expected)
  | 't' =>
    skip
    word ['r', 'u', 'e']
    fail (.wrongType (.boolean true) expected)
  | 'f' =>
    skip
    word ['a', 'l', 's', 'e']
    fail (.wrongType (.boolean false) expected)
  | '-' =>
    skip
    let found ← number true
    fail (.wrongType found expected)
  | '"' =>
    skip
    let text ← textToEnd
    fail (.wrongType (.string text) expected)
  | '[' => fail (.wrongType .array expected)
  | '\x7b' => fail (.wrongType .object expected)
  | c =>
    if c.isDigit then
      let found ← number false
      fail (.wrongType found expected)
    else refuse .expectedValue

/-- A truth value. -/
def boolean : Reader Bool := do
  match ← valueStart with
  | 't' =>
    skip
    word ['r', 'u', 'e']
    pure true
  | 'f' =>
    skip
    word ['a', 'l', 's', 'e']
    pure false
  | _ => wrongType "a boolean"

/-- The value `null`, where nothing but that is expected. -/
def null : Reader Unit := do
  match ← valueStart with
  | 'n' =>
    skip
    word ['u', 'l', 'l']
  | _ => wrongType "unit"

/-- A string, described by `expected` to those who wrote something else. -/
def text (expected : String) : Reader String := do
  match ← valueStart with
  | '"' =>
    skip
    textToEnd
  | _ => wrongType expected

/-- Inside an array, up to the next item or the end: tells whether there is an item. -/
def nextItem (first : Bool) : Reader Bool := do
  match ← peekPastBlank with
  | none => refuse .endInList
  | some ']' => pure false
  | some c =>
    if first then pure true
    else if c = ',' then
      skip
      match ← peekPastBlank with
      | none => refuse .endInValue
      | some ']' => refuse .trailingComma
      | some _ => pure true
    else refuse .expectedItemOrEnd

/-- The end of an array in which no further item is expected. -/
def closeArray : Reader Unit := do
  match ← peekPastBlank with
  | none => refuse .endInList
  | some ']' => skip
  | some ',' =>
    skip
    match ← peekPastBlank with
    | some ']' => refuse .trailingComma
    | _ => refuse .trailingCharacters
  | some _ => refuse .trailingCharacters

/-- The items of an array up to its end. The bound is on their number. -/
def itemsWithin (item : Reader α) (first : Bool) : Nat → Reader (List α)
  | 0 => fail .endInList
  | bound + 1 => do
    if ← nextItem first then
      let value ← item
      pure (value :: (← itemsWithin item false bound))
    else pure []

/-- An array of values of one kind. -/
def array (item : Reader α) : Reader (List α) := do
  match ← valueStart with
  | '[' =>
    skip
    let c ← get
    let items ← itemsWithin item true (c.rest.length + 1)
    closeArray
    pure items
  | _ => wrongType "a sequence"

/-- Inside an object, up to the value of the next member or the end: the name of the member. -/
def nextKey (first : Bool) : Reader (Option String) := do
  match ← peekPastBlank with
  | none => refuse .endInObject
  | some '\x7d' => pure none
  | some c =>
    if first then
      if c = '"' then
        skip
        some <$> textToEnd
      else refuse .keyNotString
    else if c = ',' then
      skip
      match ← peekPastBlank with
      | none => refuse .endInValue
      | some '"' =>
        skip
        some <$> textToEnd
      | some '\x7d' => refuse .trailingComma
      | some _ => refuse .keyNotString
    else refuse .expectedMemberOrEnd

/-- The colon between the name and the value of a member. -/
def colon : Reader Unit := do
  match ← peekPastBlank with
  | none => refuse .endInObject
  | some ':' => skip
  | some _ => refuse .expectedColon

/-- An array or an object. -/
inductive Bracket where
  | array
  | object
  deriving Repr, DecidableEq

/-- The character that ends an array or an object. -/
def Bracket.closing : Bracket → Char
  | .array => ']'
  | .object => '\x7d'

/-- The text ended inside an array or an object. -/
def Bracket.unfinished : Bracket → Fault
  | .array => .endInList
  | .object => .endInObject

/-- Something stands behind a value inside an array or an object that cannot stand there. -/
def Bracket.unseparated : Bracket → Fault
  | .array => .expectedItemOrEnd
  | .object => .expectedMemberOrEnd

/-- Passes over the name of a member and the colon, if a member of an object comes next. -/
def skipKey : Bracket → Reader Unit
  | .array => pure ()
  | .object => do
    match ← peekPastBlank with
    | none => refuse .endInObject
    | some '"' =>
      skip
      skipText
      colon
    | some _ => refuse .keyNotString

/-- Behind a value inside the given brackets, innermost first: passes over the ends of brackets up to the place of
the next value. The brackets that are still open come back. -/
def leave : List Bracket → Reader (List Bracket)
  | [] => pure []
  | bracket :: outer => do
    match ← peekPastBlank with
    | none => refuse bracket.unfinished
    | some c =>
      if c = ',' then
        skip
        skipKey bracket
        pure (bracket :: outer)
      else if c = bracket.closing then
        skip
        leave outer
      else refuse bracket.unseparated

/-- Behind an opening bracket: the brackets that are still open when the next value comes. -/
def enter (bracket : Bracket) (outer : List Bracket) : Reader (List Bracket) := do
  match ← peekPastBlank with
  | none => refuse bracket.unfinished
  | some c =>
    if c = bracket.closing then
      skip
      leave outer
    else
      skipKey bracket
      pure (bracket :: outer)

/-- Passes over a value inside the given brackets up to the place of the next value. -/
def skipOne (open_ : List Bracket) : Reader (List Bracket) := do
  match ← valueStart with
  | 'n' =>
    skip
    word ['u', 'l', 'l']
    leave open_
  | 't' =>
    skip
    word ['r', 'u', 'e']
    leave open_
  | 'f' =>
    skip
    word ['a', 'l', 's', 'e']
    leave open_
  | '-' =>
    skip
    skipNumber
    leave open_
  | '"' =>
    skip
    skipText
    leave open_
  | '[' =>
    skip
    enter .array open_
  | '\x7b' =>
    skip
    enter .object open_
  | c =>
    if c.isDigit then
      skipNumber
      leave open_
    else refuse .expectedValue

/-- Passes over values until no bracket is open. The bound is on the number of values. -/
def skipWithin (open_ : List Bracket) : Nat → Reader Unit
  | 0 => fail .expectedValue
  | bound + 1 => do
    match ← skipOne open_ with
    | [] => pure ()
    | bracket :: outer => skipWithin (bracket :: outer) bound

/-- Passes over a value of any kind. -/
def anything : Reader Unit := do
  let c ← get
  skipWithin [] (c.rest.length + 1)

end ElementLocator.Json.Reader
