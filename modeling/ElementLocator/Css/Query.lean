import ElementLocator.Css.Matching
import ElementLocator.Css.Selector.Parser

/-!
# CSS queries

The elements that match a selector, all of them or the first one, in the whole document or below a node. Below a
node there are two ways to match: freely, where the left parts of a selector may match elements outside, and
confined, where all parts match inside.
-/

namespace ElementLocator.Css

/-- All elements of the document that match a selector, in document order. -/
def queryAll (d : Document) (selector : String) : Except Error (List NodeId) := do
  let list ← parse selector
  .ok (d.elements.filter (matchesList d · list))

/-- The first element below a node that matches a selector. -/
def queryFrom (d : Document) (scope : NodeId) (selector : String) : Except Error (Option NodeId) := do
  let list ← parse selector
  .ok ((d.descendantElements scope).find? (matchesList d · list))

/-- The first element of the document that matches a selector. -/
def query (d : Document) (selector : String) : Except Error (Option NodeId) := queryFrom d Document.root selector

/-- The first element below a node that matches a selector with all its parts inside that node. -/
def queryWithin (d : Document) (scope : NodeId) (selector : String) : Except Error (Option NodeId) := do
  let list ← parse selector
  .ok ((d.descendantElements scope).find? (matchesWithin d (some scope) · list))

end ElementLocator.Css
