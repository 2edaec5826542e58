import ElementLocator.Number

/-!
# Location paths

The abstract form of the XPath subset: a location path is a list of steps, each with an axis, a node test and
predicates. The abbreviation `//` stands for a step `descendant-or-self::node()`, `.` for `self::node()` and `..`
for `parent::node()`.
-/

namespace ElementLocator.XPath

/-- The direction of a step. -/
inductive Axis where
  | child
  | descendant
  | descendantOrSelf
  | self
  | parent
  deriving Repr, DecidableEq

/-- The name of an axis. -/
def Axis.name : Axis → String
  | .child => "child"
  | .descendant => "descendant"
  | .descendantOrSelf => "descendant-or-self"
  | .self => "self"
  | .parent => "parent"

/-- The axis with a name. -/
def Axis.ofName? (name : String) : Option Axis :=
  [Axis.child, .descendant, .descendantOrSelf, .self, .parent].find? (·.name == name)

/-- Which nodes on the axis a step takes: elements with a tag in any letter case, all elements, or all elements
and the document node. -/
inductive NodeTest where
  | name (tag : String)
  | wildcard
  | anyNode
  deriving Repr, DecidableEq

/-- The functions that expressions may call. -/
inductive Function where
  | contains
  | startsWith
  | concat
  | not
  | position
  | last
  | normalizeSpace
  | string
  | alwaysTrue
  | alwaysFalse
  deriving Repr, DecidableEq

/-- The name of a function. -/
def Function.name : Function → String
  | .contains => "contains"
  | .startsWith => "starts-with"
  | .concat => "concat"
  | .not => "not"
  | .position => "position"
  | .last => "last"
  | .normalizeSpace => "normalize-space"
  | .string => "string"
  | .alwaysTrue => "true"
  | .alwaysFalse => "false"

/-- The function with a name. -/
def Function.ofName? (name : String) : Option Function :=
  [Function.contains, .startsWith, .concat, .not, .position, .last, .normalizeSpace, .string,
    .alwaysTrue, .alwaysFalse].find? (·.name == name)

/-- The least number of arguments of a function. -/
def Function.least : Function → Nat
  | .contains | .startsWith | .concat => 2
  | .not | .normalizeSpace | .string => 1
  | .position | .last | .alwaysTrue | .alwaysFalse => 0

/-- The greatest number of arguments of a function; `concat` takes any number. -/
def Function.most? : Function → Option Nat
  | .contains | .startsWith => some 2
  | .concat => none
  | .not | .normalizeSpace | .string => some 1
  | .position | .last | .alwaysTrue | .alwaysFalse => some 0

/-- The greatest number of arguments as messages show it, which is the greatest 64-bit count if any number will do. -/
def Function.shownMost (function : Function) : Nat := function.most?.getD 0xFFFFFFFFFFFFFFFF

/-- An expression of a predicate. -/
inductive Expr where
  | or (left right : Expr)
  | and (left right : Expr)
  | compare (negated : Bool) (left right : Expr)
  | number (value : Number)
  | literal (text : String)
  | attribute (name : String)
  | call (function : Function) (arguments : List Expr)
  deriving Repr

/-- One step of a location path. -/
structure Step where
  axis : Axis
  test : NodeTest
  predicates : List Expr := []
  deriving Repr

/-- The step that `//` stands for. -/
def Step.anywhere : Step := ⟨.descendantOrSelf, .anyNode, []⟩

/-- The step that `.` stands for. -/
def Step.here : Step := ⟨.self, .anyNode, []⟩

/-- The step that `..` stands for. -/
def Step.up : Step := ⟨.parent, .anyNode, []⟩

/-- A location path; an absolute one starts at the document node, a relative one at the context node. -/
structure LocationPath where
  absolute : Bool
  steps : List Step
  deriving Repr

end ElementLocator.XPath
