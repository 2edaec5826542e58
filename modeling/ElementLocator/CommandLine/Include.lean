import ElementLocator.Scope
import ElementLocator.Text.Quoted

/-!
# Refinements on the command line

A refinement is written `scope:index:name=value`. The scope and the index end at the first two colons and the name
at the first equals sign behind them, so that a name may contain colons, and a value may contain both.
-/

namespace ElementLocator.CommandLine

/-- Why a text is not an index. -/
inductive IndexFault where
  | empty
  | invalidDigit
  | tooLarge
  deriving Repr, DecidableEq

/-- The fault in words. -/
def IndexFault.message : IndexFault → String
  | .empty => "cannot parse integer from empty string"
  | .invalidDigit => "invalid digit found in string"
  | .tooLarge => "number too large to fit in target type"

/-- The greatest index. -/
def greatestIndex : Nat := 0xFFFFFFFFFFFFFFFF

/-- Appends digits to a number; the first fault from the left counts. -/
def appendDigits (n : Nat) : List Char → Except IndexFault Nat
  | [] => .ok n
  | c :: rest =>
    if !c.isDigit then .error .invalidDigit
    else
      let next := 10 * n + (c.toNat - 0x30)
      if greatestIndex < next then .error .tooLarge else appendDigits next rest

/-- The number that a text writes with digits, which may follow a plus sign. -/
def readIndex : List Char → Except IndexFault Nat
  | [] => .error .empty
  | '+' :: c :: rest => appendDigits 0 (c :: rest)
  | cs => appendDigits 0 cs

/-- Why a text is not a refinement. -/
inductive IncludeFault where
  | missingScope
  | missingIndex
  | missingEquals
  | emptyName
  | unknownScope (name : String)
  | badIndex (fault : IndexFault)
  deriving Repr, DecidableEq

/-- The fault in words. -/
def IncludeFault.message : IncludeFault → String
  | .missingScope => "expected <scope>:<index>:<name>=<value>"
  | .missingIndex => "missing index"
  | .missingEquals => "missing " ++ Text.codeSpan "="
  | .emptyName => "empty attribute name"
  | .unknownScope name => "unknown scope " ++ Text.codeSpan name
  | .badIndex fault => "bad index: " ++ fault.message

/-- A value of an attribute to be included for the entry with an index in a scope. -/
structure Include where
  scope : Scope
  index : Nat
  name : String
  value : String
  deriving Repr, DecidableEq

/-- What a cut yields, or a fault if there is nothing to cut at. -/
def cutOr (fault : IncludeFault) (separator : Char) (cs : List Char) :
    Except IncludeFault (List Char × List Char) :=
  match Text.cutAtFirst separator cs with
  | none => .error fault
  | some parts => .ok parts

/-- The refinement that a text writes. -/
def Include.parse (text : String) : Except IncludeFault Include := do
  let (scopeText, rest) ← cutOr .missingScope ':' text.toList
  let (indexText, assignment) ← cutOr .missingIndex ':' rest
  let (name, value) ← cutOr .missingEquals '=' assignment
  if name.isEmpty then .error .emptyName
  match Scope.ofText? (String.ofList scopeText) with
  | none => .error (.unknownScope (String.ofList scopeText))
  | some scope =>
    let index ← (readIndex indexText).mapError .badIndex
    .ok ⟨scope, index, String.ofList name, String.ofList value⟩

end ElementLocator.CommandLine
