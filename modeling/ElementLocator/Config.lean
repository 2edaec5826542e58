import ElementLocator.Grammar
import ElementLocator.Json.Value
import ElementLocator.Text.Blank

/-!
# Settings

A setting names the attributes that may refine a locator and says in which grammar locators are written. Settings
start from defaults, and the variables of an environment change them one by one.
-/

namespace ElementLocator

/-- What can be set. -/
structure Config where
  attributes : List String := ["id", "class", "href", "name", "title", "type", "role", "alt", "src", "for"]
  useXPath : Bool := false
  deriving Repr, DecidableEq, Inhabited

namespace Config

/-- The grammar in which locators are written at first. -/
def grammar (config : Config) : Grammar := if config.useXPath then .xpath else .css

/-- An attribute may refine a locator; the letter case of its name does not count. -/
def allows (config : Config) (name : String) : Bool :=
  config.attributes.any (Text.equalIgnoringCase · name)

/-- The names in a list that is separated by commas, in lower case; blank ones do not count. -/
def namesIn (list : String) : List String :=
  ((Text.splitAtEach ',' list.toList).map Text.trimChars).filterMap fun name =>
    if name.isEmpty then none else some (Text.lower (String.ofList name))

/-- The variable that lists the attributes. -/
def attributesVariable : String := "SELPATH_ATTRIBUTES"

/-- The variable that names the grammar. -/
def grammarVariable : String := "SELPATH_GRAMMAR"

/-- The attributes that an environment sets: a list without any name sets nothing. -/
def attributesIn? (lookup : String → Option String) : Option (List String) :=
  (lookup attributesVariable).bind fun list =>
    let names := namesIn list
    if names.isEmpty then none else some names

/-- The grammar that an environment sets: an unknown name sets nothing. -/
def grammarIn? (lookup : String → Option String) : Option Grammar :=
  (lookup grammarVariable).bind Grammar.ofText?

/-- The defaults with what an environment sets. -/
def ofEnvironment (lookup : String → Option String) : Config where
  attributes := (attributesIn? lookup).getD ({} : Config).attributes
  useXPath := ((grammarIn? lookup).map (· == .xpath)).getD ({} : Config).useXPath

/-- Settings as a JSON value. -/
def toJson (config : Config) : Json :=
  .object [("attribute_whitelist", .array (config.attributes.map .string)), ("use_xpath", .boolean config.useXPath)]

end Config

end ElementLocator
