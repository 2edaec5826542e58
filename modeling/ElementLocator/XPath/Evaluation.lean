import ElementLocator.Document
import ElementLocator.Number.Reading
import ElementLocator.Number.Shortest
import ElementLocator.XPath.Path

/-!
# Evaluating location paths

A step takes every node it is given to the nodes on its axis that pass the node test and then, one predicate
after the other, keeps those for which the predicate holds; position and size count what the earlier predicates
have left of the nodes for that one input. The results for all inputs are put together without repetition and in
document order.

Nodes outside the document tree come behind all others, in the order in which they were found.
-/

namespace ElementLocator.XPath

/-- The value of an expression; an attribute that the node lacks is an empty set of nodes. -/
inductive Value where
  | boolean (value : Bool)
  | number (value : Number)
  | text (value : String)
  | attribute (value : Option String)

namespace Value

/-- The value as a truth value. -/
def truthy : Value → Bool
  | .boolean value => value
  | .number value => !value.isZero && !value.isNaN
  | .text value => value != ""
  | .attribute value => value.isSome

/-- The value as a text. -/
def toText : Value → String
  | .boolean value => if value then "true" else "false"
  | .number value => value.wholeText
  | .text value => value
  | .attribute value => value.getD ""

/-- The number that a text denotes, white space at its ends aside, or not a number. -/
def numberOfText (s : String) : Number := (Number.parse? (Text.trimChars s.toList)).getD .nan

/-- The value as a number. -/
def toNumber : Value → Number
  | .boolean value => Number.ofNat (if value then 1 else 0)
  | .number value => value
  | .text value => numberOfText value
  | .attribute (some value) => numberOfText value
  | .attribute none => .nan

/-- The value is an empty set of nodes. -/
def isMissing : Value → Bool
  | .attribute none => true
  | _ => false

/-- Equality after conversion: to truth values if one side is one, else to numbers if one side is one, else to
texts. -/
def equals : Value → Value → Bool
  | .boolean a, b => a == b.truthy
  | a, .boolean b => a.truthy == b
  | .number a, b => a.equals b.toNumber
  | a, .number b => a.toNumber.equals b
  | a, b => a.toText == b.toText

/-- The comparison `=`, or `!=` if negated. With an empty set of nodes both are false. -/
def compare (negated : Bool) (a b : Value) : Bool :=
  !a.isMissing && !b.isMissing && a.equals b != negated

end Value

/-- A node together with its place, counted from one, among the nodes under consideration. -/
structure Focus where
  node : NodeId
  position : Nat
  size : Nat

/-- The text of the argument with the given index. -/
def textAt (values : List Value) (index : Nat) : String := (values[index]?.map Value.toText).getD ""

/-- The value of a function call. -/
def Function.apply (focus : Focus) (values : List Value) : Function → Value
  | .contains => .boolean (Text.occursIn (textAt values 1).toList (textAt values 0).toList)
  | .startsWith => .boolean ((textAt values 1).toList.isPrefixOf (textAt values 0).toList)
  | .concat => .text (String.join (values.map Value.toText))
  | .not => .boolean !(values.head?.any Value.truthy)
  | .position => .number (Number.ofNat focus.position)
  | .last => .number (Number.ofNat focus.size)
  | .normalizeSpace => .text (" ".intercalate (Text.words (textAt values 0)))
  | .string => .text (textAt values 0)
  | .alwaysTrue => .boolean true
  | .alwaysFalse => .boolean false

mutual

/-- The value of an expression at a focus. -/
def Expr.eval (d : Document) (focus : Focus) : Expr → Value
  | .or left right => .boolean ((left.eval d focus).truthy || (right.eval d focus).truthy)
  | .and left right => .boolean ((left.eval d focus).truthy && (right.eval d focus).truthy)
  | .compare negated left right => .boolean (Value.compare negated (left.eval d focus) (right.eval d focus))
  | .number value => .number value
  | .literal text => .text text
  | .attribute name => .attribute (d.attribute? focus.node name)
  | .call function arguments => function.apply focus (Expr.evalAll d focus arguments)

/-- The values of expressions in order. -/
def Expr.evalAll (d : Document) (focus : Focus) : List Expr → List Value
  | [] => []
  | e :: rest => e.eval d focus :: Expr.evalAll d focus rest

end

/-- A predicate holds: a number must be the position, any other value must be true. -/
def Expr.holds (d : Document) (e : Expr) (focus : Focus) : Bool :=
  match e.eval d focus with
  | .number value => value.equals (Number.ofNat focus.position)
  | value => value.truthy

/-- The nodes for which a predicate holds, each with its position among all of them. -/
def keep (d : Document) (nodes : List NodeId) (predicate : Expr) : List NodeId :=
  (nodes.zipIdx.filter fun (n, i) => predicate.holds d ⟨n, i + 1, nodes.length⟩).map Prod.fst

/-- The nodes on an axis; apart from `self` and `parent` these are elements. -/
def Axis.nodes (d : Document) (n : NodeId) : Axis → List NodeId
  | .child => d.elementChildren n
  | .descendant => d.descendantElements n
  | .descendantOrSelf => n :: d.descendantElements n
  | .self => [n]
  | .parent => (d.parent? n).toList

/-- A node passes a node test. -/
def NodeTest.passes (d : Document) (n : NodeId) : NodeTest → Bool
  | .anyNode => n == Document.root || d.isElement n
  | .wildcard => d.isElement n
  | .name tag => (d.localName? n).any (Text.equalIgnoringCase · tag)

/-- The nodes that a step takes from one input, in the order of the axis. -/
def Step.from (d : Document) (s : Step) (n : NodeId) : List NodeId :=
  s.predicates.foldl (keep d) ((s.axis.nodes d n).filter (s.test.passes d ·))

/-- The nodes in document order: the document node, then the elements. All other nodes come behind them and keep
their order. -/
def inDocumentOrder (d : Document) (nodes : List NodeId) : List NodeId :=
  let order := Document.root :: d.elements
  nodes.mergeSort fun a b => order.idxOf a ≤ order.idxOf b

/-- The nodes that a step takes from all its inputs, each once and in document order. -/
def Step.apply (d : Document) (inputs : List NodeId) (s : Step) : List NodeId :=
  inDocumentOrder d (inputs.flatMap (s.from d)).eraseDups

/-- The nodes that a location path selects from a context node. -/
def LocationPath.select (d : Document) (path : LocationPath) (context : NodeId) : List NodeId :=
  path.steps.foldl (Step.apply d) [if path.absolute then Document.root else context]

end ElementLocator.XPath
