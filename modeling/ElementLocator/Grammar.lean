import ElementLocator.Text.Ascii

/-!
# The two grammars of locators

A locator is written as a CSS selector or as an XPath expression.
-/

namespace ElementLocator

/-- The language in which a locator is written. -/
inductive Grammar where
  | css
  | xpath
  deriving Repr, DecidableEq, Inhabited

namespace Grammar

/-- The name of a grammar as messages show it. -/
def name : Grammar → String
  | css => "CSS"
  | xpath => "XPath"

/-- The name of a grammar as configuration data writes it. -/
def keyword : Grammar → String
  | css => "css"
  | xpath => "xpath"

/-- All grammars, in the order in which messages list them. -/
def all : List Grammar := [css, xpath]

/-- The grammar with the given keyword, in exactly this spelling. -/
def ofKeyword? (text : String) : Option Grammar := all.find? (·.keyword == text)

/-- The grammar with the given name in any letter case. -/
def ofText? (text : String) : Option Grammar := all.find? (Text.equalIgnoringCase ·.name text)

/-- The name of a grammar is read back. -/
theorem ofText?_name (g : Grammar) : ofText? g.name = some g := by
  cases g <;> decide

end Grammar

end ElementLocator
