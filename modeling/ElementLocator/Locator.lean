import ElementLocator.Locator.MergedTree
import ElementLocator.Locator.Rendering
import ElementLocator.Locator.Resolution

/-!
# Locating picked nodes

A locator keeps the chain of a main pick and the branch of a relative one, together with the attribute values that
refine their entries. It writes each of the two as a query that finds the picked node. The main pick starts
afresh; the relative pick keeps the main chain with its refinements. A refused operation changes nothing.
-/

namespace ElementLocator

/-- The picks in one document and their refinements. The handles below the length of the main chain belong to
that chain. -/
structure Locator where
  document : Document
  config : Config
  registry : Locator.Registry := {}
  main : Locator.Chain := []
  branch : Option Locator.Branch := none
  grammar : Grammar := config.grammar

namespace Locator

/-- Nothing is picked yet, and the grammar is the one that the settings name. -/
def start (document : Document) (config : Config) : Locator := { document, config }

/-! ### Picking -/

/-- Picks the main node. All refinements and the relative pick are forgotten. -/
def pickMain (l : Locator) (n : NodeId) : Except Error Locator := do
  validatePick l.document n
  let (main, registry) := Registry.insertChain {} l.document n
  .ok { l with registry, main, branch := none }

/-- Picks the relative node. The main chain and its refinements stay. -/
def pickRelative (l : Locator) (n : NodeId) : Except Error Locator := do
  validatePick l.document n
  let (branch, registry) := (l.registry.truncate l.main.length).insertBranch l.document n l.main
  .ok { l with registry, branch := some branch }

/-- Picks the node of a scope. -/
def pick (l : Locator) : Scope → NodeId → Except Error Locator
  | .main => l.pickMain
  | .relative => l.pickRelative

/-! ### Reading -/

/-- The handles of a scope from the top to the picked node; those of the relative scope start below the common
ancestor. -/
def handles (l : Locator) : Scope → List Handle
  | .main => l.main
  | .relative => (l.branch.map Branch.own).getD []

/-- The descriptor at a place in a scope. -/
def descriptor? (l : Locator) (scope : Scope) (index : Nat) : Option Descriptor :=
  (l.handles scope)[index]?.bind l.registry.get?

/-- The picked node of a scope. -/
def leaf? (l : Locator) : Scope → Option NodeId
  | .main => l.main.getLast?.bind l.registry.node?
  | .relative => (l.branch.bind Branch.leaf?).bind l.registry.node?

/-- The two picks have an ancestor in common. -/
def hasCommonAncestor (l : Locator) : Bool := (l.branch.bind Branch.shared).isSome

/-- The nearest ancestor that the two picks have in common. -/
def anchor? (l : Locator) : Option NodeId := (l.branch.bind Branch.shared).bind l.registry.node?

/-- An entry of a scope as it is shown. -/
structure Entry where
  handle : Handle
  node : NodeId
  tag : String
  attributes : AttributeValues
  hasPositionalConflict : Bool
  deriving Repr, DecidableEq

/-- The entries of a scope from the top to the picked node. -/
def entries (l : Locator) (scope : Scope) : List Entry :=
  (l.handles scope).filterMap fun h => (l.registry.get? h).map fun descriptor =>
    ⟨h, descriptor.node, (l.document.tagName? descriptor.node).getD "", descriptor.attributes,
      l.document.hasPositionalConflict descriptor.node⟩

/-- The two chains as one tree. -/
def tree (l : Locator) : MergedTree := mergedTree l.document l.registry l.main l.branch

/-! ### Refining -/

/-- The attributes that can refine an entry, with the values they offer. -/
def available (l : Locator) (scope : Scope) (index : Nat) : Except Error AttributeValues :=
  match l.descriptor? scope index with
  | none => .error (.unknownEntry scope index)
  | some descriptor => .ok (availableAttributes l.document descriptor.node l.config)

/-- Chooses an attribute value for an entry, or takes the choice back; tells also whether that changed
anything. -/
def toggle (l : Locator) (scope : Scope) (index : Nat) (name value : String) (included : Bool) :
    Except Error (Bool × Locator) :=
  match (l.handles scope)[index]? with
  | none => .error (.unknownEntry scope index)
  | some h => do
    match ← l.registry.setIncluded h l.document l.config name value included with
    | none => .error (.unknownEntry scope index)
    | some (changed, registry) => .ok (changed, { l with registry })

/-! ### Writing and resolving queries -/

/-- The same picks, written in another grammar. -/
def setGrammar (l : Locator) (grammar : Grammar) : Locator := { l with grammar }

/-- The same picks, written in XPath or in CSS. -/
def setUseXPath (l : Locator) (useXPath : Bool) : Locator := l.setGrammar (if useXPath then .xpath else .css)

/-- Where the query of a scope starts to search. -/
def anchoring (l : Locator) : Scope → Anchoring
  | .main => .absolute
  | .relative => if l.hasCommonAncestor then .relative else .absolute

/-- The query of a scope; the empty text if nothing is picked. -/
def query (l : Locator) (scope : Scope) : String :=
  render l.document l.registry (l.handles scope) l.grammar (l.anchoring scope)

/-- The first node of the document that a query in the current grammar finds. -/
def find (l : Locator) (query : String) : Except Error (Option NodeId) := resolve l.document query l.grammar

/-- The node at which the query of a scope starts to search. -/
def startOf (l : Locator) : Scope → NodeId
  | .main => Document.root
  | .relative => l.anchor?.getD Document.root

/-- The first node that the query of a scope finds from where it starts. -/
def findScope (l : Locator) (scope : Scope) : Except Error (Option NodeId) :=
  resolveFrom l.document (l.startOf scope) (l.query scope) l.grammar

end Locator

end ElementLocator
