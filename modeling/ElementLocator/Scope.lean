import ElementLocator.Text.Ascii

/-!
# Main and relative

Two nodes can be located at a time: a main one, and a second one relative to it.
-/

namespace ElementLocator

/-- Which of the two picked nodes is meant. -/
inductive Scope where
  | main
  | relative
  deriving Repr, DecidableEq

namespace Scope

/-- The name of a scope. -/
def name : Scope → String
  | main => "main"
  | relative => "relative"

/-- The scope with the given name in any letter case. -/
def ofText? (text : String) : Option Scope := [main, relative].find? (Text.equalIgnoringCase ·.name text)

/-- The name of a scope is read back. -/
theorem ofText?_name (s : Scope) : ofText? s.name = some s := by
  cases s <;> decide

end Scope

end ElementLocator
