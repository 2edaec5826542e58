import ElementLocator.Css.Escape
import ElementLocator.Locator.Registry
import ElementLocator.XPath.Literal

/-!
# Rendering descriptors as queries

Each descriptor becomes a step: its tag in upper case, its position among the siblings with the same tag unless it
is the first of them, and a condition for each chosen value. In CSS the steps are joined as descendants, in XPath
as children below an arbitrary descendant of the starting point.
-/

namespace ElementLocator.Locator

/-- Where a query starts to search: at the document, or at a context node. -/
inductive Anchoring where
  | absolute
  | relative
  deriving Repr, DecidableEq

/-- The tag of a described node in upper case. -/
def tagOf (d : Document) (n : NodeId) : List Char := ((d.tagName? n).getD "").toList

/-- The decimal digits of a number. -/
def digits (n : Nat) : List Char := Nat.toDigits 10 n

/-- The mark of a node that is not the first with its tag; positions count from one. -/
def position (d : Document) (n : NodeId) (opening closing : String) : List Char :=
  match d.positionalIndex n with
  | 0 => []
  | k + 1 => opening.toList ++ digits (k + 2) ++ closing.toList

/-- The conditions on one attribute in CSS: one for each word of `class`, otherwise one for the first value. -/
def cssCondition (name : String) (values : List String) : List Char :=
  if name = "class" then values.flatMap fun value => '.' :: Css.writeIdentifier value.toList
  else match values with
    | [] => []
    | value :: _ =>
      if name = "id" then '#' :: Css.writeIdentifier value.toList
      else '[' :: Css.writeIdentifier name.toList ++ '=' :: Css.writeString value.toList ++ [']']

/-- A descriptor as a compound selector. -/
def cssStep (d : Document) (descriptor : Descriptor) : List Char :=
  tagOf d descriptor.node ++ position d descriptor.node ":nth-of-type(" ")" ++
    descriptor.attributes.flatMap fun (name, values) => cssCondition name values

/-- The conditions on one attribute in XPath: its value contains each chosen one. -/
def xpathConditions (name : String) (values : List String) : List (List Char) :=
  values.map fun value => "contains(@".toList ++ name.toList ++ ", ".toList ++ XPath.literalFor value.toList ++ [')']

/-- A descriptor as a location step. -/
def xpathStep (d : Document) (descriptor : Descriptor) : List Char :=
  let conditions := descriptor.attributes.flatMap fun (name, values) => xpathConditions name values
  tagOf d descriptor.node ++ position d descriptor.node "[" "]" ++
    if conditions.isEmpty then [] else '[' :: List.intercalate " and ".toList conditions ++ [']']

/-- Descriptors from the top to the bottom as a query; no descriptor gives the empty text. -/
def renderChars (d : Document) (descriptors : List Descriptor) (grammar : Grammar) (anchoring : Anchoring) :
    List Char :=
  if descriptors.isEmpty then []
  else match grammar, anchoring with
    | .css, _ => List.intercalate [' '] (descriptors.map (cssStep d))
    | .xpath, .absolute => '/' :: '/' :: List.intercalate ['/'] (descriptors.map (xpathStep d))
    | .xpath, .relative => '.' :: '/' :: '/' :: List.intercalate ['/'] (descriptors.map (xpathStep d))

/-- The descriptors with the given handles as a query; handles that stand for nothing are left out. -/
def render (d : Document) (r : Registry) (handles : List Handle) (grammar : Grammar) (anchoring : Anchoring) :
    String :=
  String.ofList (renderChars d (handles.filterMap r.get?) grammar anchoring)

end ElementLocator.Locator
