import ElementLocator.Locator.Descriptor

/-!
# The registry of descriptors

A registry numbers descriptors in the order in which they were made, and holds at most one for each node: an index
tells which nodes have one. Old registries are the front parts of newer ones, so what was added last is forgotten by
cutting the list and by dropping the higher handles from the index.
-/

namespace ElementLocator.Locator

/-- A descriptor's place in its registry. -/
abbrev Handle := Nat

/-- Descriptors in the order of their handles, and the handles of their nodes. -/
structure Registry where
  descriptors : List Descriptor := []
  index : List (NodeId × Handle) := []
  deriving Repr, DecidableEq

namespace Registry

/-- The number of descriptors, which is the next handle. -/
def size (r : Registry) : Nat := r.descriptors.length

/-- The descriptor with the given handle. -/
def get? (r : Registry) (h : Handle) : Option Descriptor := r.descriptors[h]?

/-- The node of the descriptor with the given handle. -/
def node? (r : Registry) (h : Handle) : Option NodeId := (r.get? h).map Descriptor.node

/-- The handle of a node's descriptor. -/
def lookup (r : Registry) (n : NodeId) : Option Handle := r.index.lookup n

/-- The handle of a node's descriptor, which is made if there is none. -/
def insert (r : Registry) (n : NodeId) : Handle × Registry :=
  match r.lookup n with
  | some h => (h, r)
  | none => (r.size, { descriptors := r.descriptors ++ [{ node := n }], index := r.index ++ [(n, r.size)] })

/-- Inserts nodes one after the other. -/
def insertAll (r : Registry) : List NodeId → List Handle × Registry
  | [] => ([], r)
  | n :: rest =>
    let (h, r) := r.insert n
    let (hs, r) := r.insertAll rest
    (h :: hs, r)

/-- Puts a descriptor in the place of the one with the given handle. -/
def set (r : Registry) (h : Handle) (descriptor : Descriptor) : Registry :=
  { r with descriptors := r.descriptors.set h descriptor }

/-- Forgets all descriptors but the first ones. -/
def truncate (r : Registry) (size : Nat) : Registry where
  descriptors := r.descriptors.take size
  index := r.index.filter fun entry => entry.2 < size

/-- Chooses a value for a stored descriptor, or takes the choice back; tells also whether that changed anything.
There is no answer for a handle that stands for nothing. -/
def setIncluded (r : Registry) (h : Handle) (d : Document) (config : Config) (name value : String)
    (included : Bool) : Except Error (Option (Bool × Registry)) :=
  match r.get? h with
  | none => .ok none
  | some descriptor => do
    let (changed, refined) ← descriptor.toggle d config name value included
    .ok (some (changed, r.set h refined))

end Registry

end ElementLocator.Locator
