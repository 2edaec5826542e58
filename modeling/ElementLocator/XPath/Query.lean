import ElementLocator.XPath.Evaluation
import ElementLocator.XPath.Path.Parser

/-!
# XPath queries

Queries are texts; their answers are elements. The document node can be a step on the way but is no answer.
-/

namespace ElementLocator.XPath

/-- The elements that a query selects from a context node, in document order. -/
def select (d : Document) (context : NodeId) (query : String) : Except Error (List NodeId) := do
  let path ← parse query
  .ok ((path.select d context).filter d.isElement)

/-- The first element that a query selects from a context node. -/
def selectFirstFrom (d : Document) (context : NodeId) (query : String) : Except Error (Option NodeId) := do
  let found ← select d context query
  .ok found.head?

/-- The first element that a query selects from the document node. -/
def selectFirst (d : Document) (query : String) : Except Error (Option NodeId) :=
  selectFirstFrom d Document.root query

end ElementLocator.XPath
