/-!
# Ordered forests of numbered nodes

A forest is an append-only store: every node that was ever made keeps its number, whether it hangs under a
parent or stands alone. Each slot records the value of the node, its parent and the list of its children in
order. Both directions are stored, and `Forest.WellFormed` states that they agree and that climbing ends.

Walks along the links carry a bound on their length. No chain of a well-formed forest is longer than the
number of slots, so that number is the bound used throughout.
-/

namespace ElementLocator

/-- A node, by its place in the order of creation. -/
abbrev NodeId := Nat

/-- What a forest stores of one node. -/
structure Slot (α : Type) where
  value : α
  parent : Option NodeId := none
  children : List NodeId := []
  deriving Repr

/-- The nodes made so far, in order of creation. -/
structure Forest (α : Type) where
  slots : Array (Slot α) := #[]

namespace Forest

variable {α : Type}

/-- The forest without nodes. -/
def empty : Forest α := {}

/-- The number of nodes made so far, which is the number the next node gets. -/
def size (f : Forest α) : Nat := f.slots.size

/-- The value of a node. -/
def value? (f : Forest α) (n : NodeId) : Option α := f.slots[n]?.map Slot.value

/-- The parent of a node. -/
def parent? (f : Forest α) (n : NodeId) : Option NodeId := f.slots[n]?.bind Slot.parent

/-- The children of a node in order. -/
def children (f : Forest α) (n : NodeId) : List NodeId := (f.slots[n]?.map Slot.children).getD []

/-- Adds a node without parent and children; its number is the old `size`. -/
def push (f : Forest α) (value : α) : Forest α := { slots := f.slots.push { value } }

/-- Replaces the record of one node. -/
def modify (f : Forest α) (n : NodeId) (change : Slot α → Slot α) : Forest α :=
  { slots := f.slots.modify n change }

/-- Replaces the value of one node and leaves all links as they are. -/
def modifyValue (f : Forest α) (n : NodeId) (change : α → α) : Forest α :=
  f.modify n fun slot => { slot with value := change slot.value }

/-- Takes a node, with everything below it, out of its parent's children. -/
def detach (f : Forest α) (n : NodeId) : Forest α :=
  match f.parent? n with
  | none => f
  | some p =>
    (f.modify p fun slot => { slot with children := slot.children.filter (· != n) }).modify n
      fun slot => { slot with parent := none }

/-- Puts a node without parent behind the children of another. -/
def attachLast (f : Forest α) (parent child : NodeId) : Forest α :=
  (f.modify parent fun slot => { slot with children := slot.children ++ [child] }).modify child
    fun slot => { slot with parent := some parent }

/-- The list with a new element right in front of the first occurrence of `next`, or at the end. -/
def insertBeforeIn (next new : NodeId) : List NodeId → List NodeId
  | [] => [new]
  | n :: rest => if n = next then new :: n :: rest else n :: insertBeforeIn next new rest

/-- Puts a node without parent in front of a child of the given parent. -/
def attachBefore (f : Forest α) (parent next child : NodeId) : Forest α :=
  (f.modify parent fun slot => { slot with children := insertBeforeIn next child slot.children }).modify child
    fun slot => { slot with parent := some parent }

/-- At most `bound` steps of the climb from a node: the node, its parent, and so on. -/
def climb (f : Forest α) : Nat → NodeId → List NodeId
  | 0, _ => []
  | bound + 1, n => n :: (match f.parent? n with
    | none => []
    | some p => climb f bound p)

/-- A node followed by its ancestors, nearest first. -/
def lineage (f : Forest α) (n : NodeId) : List NodeId := f.climb (f.size + 1) n

/-- The node and everything at most `bound` levels below it, each node before its children. -/
def preorderWithin (f : Forest α) : Nat → NodeId → List NodeId
  | 0, n => [n]
  | bound + 1, n => n :: (f.children n).flatMap (preorderWithin f bound)

/-- The subtree of a node in pre-order, the node itself first. -/
def preorder (f : Forest α) (n : NodeId) : List NodeId := f.preorderWithin f.size n

/-- `ancestor` is the node itself or stands somewhere above it. -/
def contains (f : Forest α) (ancestor n : NodeId) : Bool := (f.lineage n).contains ancestor

/-- The children of the parent in front of a node, nearest first. -/
def preceding (f : Forest α) (n : NodeId) : List NodeId :=
  match f.parent? n with
  | none => []
  | some p => ((f.children p).takeWhile (· != n)).reverse

/-- The children of the parent behind a node, nearest first. -/
def following (f : Forest α) (n : NodeId) : List NodeId :=
  match f.parent? n with
  | none => []
  | some p => ((f.children p).dropWhile (· != n)).drop 1

/-- The two directions of every link agree, no node is listed twice, and a parent is always less deep than
its children, so that no climb runs in a circle. -/
structure WellFormed (f : Forest α) : Prop where
  parent_iff : ∀ n p, f.parent? n = some p ↔ n ∈ f.children p
  nodup : ∀ p, (f.children p).Nodup
  acyclic : ∃ depth : NodeId → Nat, ∀ n p, f.parent? n = some p → depth p < depth n

@[simp] theorem size_push (f : Forest α) (v : α) : (f.push v).size = f.size + 1 := by
  simp [push, size]

@[simp] theorem size_modify (f : Forest α) (n : NodeId) (g : Slot α → Slot α) :
    (f.modify n g).size = f.size := by
  simp [modify, size]

@[simp] theorem size_detach (f : Forest α) (n : NodeId) : (f.detach n).size = f.size := by
  unfold detach
  split <;> simp

@[simp] theorem size_attachLast (f : Forest α) (p c : NodeId) : (f.attachLast p c).size = f.size := by
  simp [attachLast]

end Forest

end ElementLocator
