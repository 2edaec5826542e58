import ElementLocator.Css.Query
import ElementLocator.Locator.Error
import ElementLocator.Text.Blank
import ElementLocator.XPath.Query

/-!
# Resolving queries

The first node that a query finds from an anchor. A CSS query is confined to the inside of the anchor, as the steps
of an XPath query that starts at the anchor are. A blank query finds nothing.
-/

namespace ElementLocator.Locator

/-- The first node that a query finds from an anchor. -/
def resolveFrom (d : Document) (anchor : NodeId) (query : String) (grammar : Grammar) :
    Except Error (Option NodeId) :=
  if Text.isBlank query then .ok none
  else match grammar with
    | .css => (Css.queryWithin d anchor query).mapError fun e => .malformedQuery query (.css e)
    | .xpath => (XPath.selectFirstFrom d anchor query).mapError fun e => .malformedQuery query (.xpath e)

/-- The first node of the document that a query finds. -/
def resolve (d : Document) (query : String) (grammar : Grammar) : Except Error (Option NodeId) :=
  resolveFrom d Document.root query grammar

end ElementLocator.Locator
