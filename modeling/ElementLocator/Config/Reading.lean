import ElementLocator.Config
import ElementLocator.Json.Reader.Value

/-!
# Settings in JSON

Settings are written as an object, in which a missing member keeps its default and an unknown one is passed over,
or as an array of the same values in order, which may end early.
-/

namespace ElementLocator

open Json (Reader)
open Json.Reader

namespace Config

/-- A list of names. -/
def namesReader : Reader (List String) := array (text "a string")

/-- The settings that a text gives. -/
structure Given where
  attributes : Option (List String) := none
  useXPath : Option Bool := none
  deriving Repr, DecidableEq

/-- The settings that were read, with defaults for the others. -/
def Given.complete (read : Given) : Config where
  attributes := read.attributes.getD ({} : Config).attributes
  useXPath := read.useXPath.getD ({} : Config).useXPath

/-- Settings as an array from behind its opening bracket on. -/
def itemsReader : Reader Given := do
  if ← nextItem true then
    let attributes ← namesReader
    if ← nextItem false then
      let useXPath ← boolean
      pure ⟨some attributes, some useXPath⟩
    else pure ⟨some attributes, none⟩
  else pure {}

/-- A member that occurs twice is refused behind its name, or behind the object if that ends there. -/
def duplicate (name : String) : Reader Given := do
  if (← peekPastBlank) = some '\x7d' then skip
  fail (.duplicateField name)

/-- The value of the member with the given name. -/
def memberReader (name : String) (read : Given) : Reader Given := do
  if name = "attribute_whitelist" then
    if read.attributes.isSome then duplicate name
    else
      colon
      pure { read with attributes := some (← namesReader) }
  else if name = "use_xpath" then
    if read.useXPath.isSome then duplicate name
    else
      colon
      pure { read with useXPath := some (← boolean) }
  else
    colon
    anything
    pure read

/-- Settings as an object from behind its opening bracket, or behind a member, up to its end. The bound is on the
number of members. -/
def membersReader (first : Bool) (read : Given) : Nat → Reader Given
  | 0 => fail .endInObject
  | bound + 1 => do
    match ← nextKey first with
    | none =>
      skip
      pure read
    | some name => membersReader false (← memberReader name read) bound

/-- Settings as a JSON value. -/
def reader : Reader Config := do
  match ← valueStart with
  | '[' =>
    skip
    let read ← itemsReader
    closeArray
    pure read.complete
  | '\x7b' =>
    skip
    let c ← get
    let read ← membersReader true {} (c.rest.length + 1)
    pure read.complete
  | _ => wrongType "struct BuilderConfig"

/-- The settings in a text. -/
def ofJsonText (text : String) : Except Json.Error Config := reader.readAll text

end Config

namespace Grammar

/-- The keyword of a grammar. -/
def keywordReader : Reader Grammar := do
  let found ← text "variant identifier"
  match ofKeyword? found with
  | some grammar => pure grammar
  | none => fail (.unknownVariant found (all.map keyword))

/-- A grammar as a JSON value: its keyword, or an object with the keyword as the only name and `null` as value. -/
def reader : Reader Grammar := do
  match ← valueStart with
  | '\x7b' =>
    skip
    let grammar ← keywordReader
    colon
    Json.Reader.null
    match ← peekPastBlank with
    | none => fail .endInObject
    | some '\x7d' =>
      skip
      pure grammar
    | some _ => fail .expectedValue
  | '"' => keywordReader
  | _ => refuse .expectedValue

/-- The grammar that a JSON text names. -/
def ofJsonText (text : String) : Except Json.Error Grammar := reader.readAll text

/-- A grammar as a JSON value. -/
def toJson (grammar : Grammar) : Json := .string grammar.keyword

end Grammar

end ElementLocator
