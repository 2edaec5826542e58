import ElementLocator.Locator.Registry

/-!
# Chains of ancestors

The chain of a node runs from its highest ancestor below the document element down to the node itself. A second
node gets a branch, which starts below the nearest ancestor that lies on the chain of the first one; it is a full
chain if there is no such ancestor.
-/

namespace ElementLocator.Locator

/-- Handles from the highest ancestor down to the picked node. -/
abbrev Chain := List Handle

/-- The chain of a second node: the ancestor that it has in common with the first chain, and what is below. -/
structure Branch where
  shared : Option Handle
  own : List Handle
  deriving Repr, DecidableEq

namespace Branch

/-- The handles from the common ancestor, if there is one, down to the picked node. -/
def handles (branch : Branch) : List Handle := branch.shared.toList ++ branch.own

/-- The handle of the picked node. -/
def leaf? (branch : Branch) : Option Handle := branch.handles.getLast?

end Branch

/-- Only attached elements other than the document element can be picked. -/
def validatePick (d : Document) (n : NodeId) : Except Error Unit :=
  if !d.isElement n then .error (.invalidPick .notAnElement)
  else if d.documentElement? = some n then .error (.invalidPick .documentElement)
  else if !d.isAttached n then .error (.invalidPick .detached)
  else .ok ()

namespace Registry

/-- Registers the chain of a node, starting from the node. -/
def insertChain (r : Registry) (d : Document) (leaf : NodeId) : Chain × Registry :=
  let (handles, r) := r.insertAll (d.chainBelowTop leaf)
  (handles.reverse, r)

/-- The handle of a node if it lies on the given chain. -/
def lookupOn (r : Registry) (chain : Chain) (n : NodeId) : Option Handle :=
  (r.lookup n).filter chain.contains

/-- Registers the branch of a node beside a chain, starting from the node. -/
def insertBranch (r : Registry) (d : Document) (leaf : NodeId) (chain : Chain) : Branch × Registry :=
  let walk := d.chainBelowTop leaf
  let (own, r') := r.insertAll (walk.takeWhile fun n => (r.lookupOn chain n).isNone)
  (⟨walk.findSome? (r.lookupOn chain), own.reverse⟩, r')

end Registry

end ElementLocator.Locator
