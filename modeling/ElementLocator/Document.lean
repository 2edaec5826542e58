import ElementLocator.Forest
import ElementLocator.Text.Ascii
import ElementLocator.Text.Blank

/-!
# Documents

A document is a forest whose node `0` is the document node. The other nodes are elements with a tag and an
ordered list of attributes, texts and comments. Tags and attribute names are kept in lower case. Only elements
have attributes, which the type of the contents guarantees.

Nodes are made detached and put in place by `Document.append`, which refuses to close a circle. Nodes that are
taken out of the tree keep their number and can be put back.
-/

namespace ElementLocator

/-- What a node of a document is. -/
inductive Content where
  | document
  | element (tag : String) (attributes : List (String × String))
  | text (text : String)
  | comment (text : String)
  deriving Repr, DecidableEq

/-- A forest of document nodes; node `0` is the document node. -/
structure Document where
  nodes : Forest Content

/-- Why a node cannot become the child of another. -/
inductive AppendRefusal where
  | itself
  | descendant
  deriving Repr, DecidableEq

/-- A refused append, with the two nodes it was about. -/
structure AppendError where
  parent : NodeId
  child : NodeId
  refusal : AppendRefusal
  deriving Repr, DecidableEq

/-- The text for a refused append; nodes are shown by their number in the order of creation, from one. -/
def AppendError.message (e : AppendError) : String :=
  let reason := match e.refusal with
    | .itself => "Can not append a node to itself"
    | .descendant => "Can not append a node to, or insert it after, its descendant"
  s!"cannot append {e.child + 1} to {e.parent + 1}: {reason}"

namespace Document

/-- The document node. -/
def root : NodeId := 0

/-- The document that consists of the document node alone. -/
def empty : Document := { nodes := Forest.empty.push .document }

/-- The number of nodes made so far. -/
def size (d : Document) : Nat := d.nodes.size

/-! ### Building -/

/-- Adds a detached node; its number is the old `size`. -/
def add (d : Document) (content : Content) : Document := { nodes := d.nodes.push content }

/-- A new element: its tag in lower case, and no attributes yet. -/
def newElement (tag : String) : Content := .element (Text.lower tag) []

/-- Takes a node with everything below it out of the tree. -/
def detach (d : Document) (n : NodeId) : Document := { nodes := d.nodes.detach n }

/-- Makes a node the last child of another, taking it from wherever it was before. -/
def append (d : Document) (parent child : NodeId) : Except AppendError Document :=
  if child = parent then .error ⟨parent, child, .itself⟩
  else if d.nodes.contains child parent then .error ⟨parent, child, .descendant⟩
  else .ok { nodes := (d.nodes.detach child).attachLast parent child }

/-- The list with the value of one key set: in its old place, or at the end for a new key. -/
def setKey (key value : String) : List (String × String) → List (String × String)
  | [] => [(key, value)]
  | (k, v) :: rest => if k = key then (k, value) :: rest else (k, v) :: setKey key value rest

/-- Sets an attribute of an element, its name in lower case; other nodes stay as they are. -/
def setAttribute (d : Document) (n : NodeId) (name value : String) : Document :=
  { nodes := d.nodes.modifyValue n fun content => match content with
      | .element tag attributes => .element tag (setKey (Text.lower name) value attributes)
      | other => other }

/-! ### Reading one node -/

/-- The content of a node. -/
def content? (d : Document) (n : NodeId) : Option Content := d.nodes.value? n

/-- The tag of an element in lower case. -/
def localName? (d : Document) (n : NodeId) : Option String :=
  match d.content? n with
  | some (.element tag _) => some tag
  | _ => none

/-- The node is an element. -/
def isElement (d : Document) (n : NodeId) : Bool := (d.localName? n).isSome

/-- The tag of an element in upper case. -/
def tagName? (d : Document) (n : NodeId) : Option String := (d.localName? n).map Text.upper

/-- The attributes of an element in order. -/
def attributes (d : Document) (n : NodeId) : List (String × String) :=
  match d.content? n with
  | some (.element _ attributes) => attributes
  | _ => []

/-- The value of an attribute, whose name is taken as it is. -/
def attribute? (d : Document) (n : NodeId) (name : String) : Option String :=
  (d.attributes n).lookup name

/-- The element has the attribute. -/
def hasAttribute (d : Document) (n : NodeId) (name : String) : Bool := (d.attribute? n name).isSome

/-- The value of the attribute `id`, unless it is empty. -/
def id? (d : Document) (n : NodeId) : Option String := (d.attribute? n "id").filter (· != "")

/-- The words of the attribute `class`, each once, in the order of their first occurrence. -/
def classList (d : Document) (n : NodeId) : List String :=
  (Text.words ((d.attribute? n "class").getD "")).eraseDups

/-! ### Moving about -/

/-- The parent of a node. -/
def parent? (d : Document) (n : NodeId) : Option NodeId := d.nodes.parent? n

/-- The parent of a node, if it is an element. -/
def parentElement? (d : Document) (n : NodeId) : Option NodeId := (d.parent? n).filter d.isElement

/-- The element siblings in front of a node, nearest first. -/
def precedingElements (d : Document) (n : NodeId) : List NodeId := (d.nodes.preceding n).filter d.isElement

/-- The element siblings behind a node, nearest first. -/
def followingElements (d : Document) (n : NodeId) : List NodeId := (d.nodes.following n).filter d.isElement

/-- The nearest element sibling in front of a node. -/
def previousElement? (d : Document) (n : NodeId) : Option NodeId := (d.precedingElements n).head?

/-- The nearest element sibling behind a node. -/
def nextElement? (d : Document) (n : NodeId) : Option NodeId := (d.followingElements n).head?

/-- The children of a node that are elements. -/
def elementChildren (d : Document) (n : NodeId) : List NodeId := (d.nodes.children n).filter d.isElement

/-- The first child of a node that is an element. -/
def firstElementChild? (d : Document) (n : NodeId) : Option NodeId := (d.elementChildren n).head?

/-- The elements below a node in document order. -/
def descendantElements (d : Document) (n : NodeId) : List NodeId :=
  ((d.nodes.preorder n).drop 1).filter d.isElement

/-- The elements of the document in document order. -/
def elements (d : Document) : List NodeId := d.descendantElements root

/-- The first element child of the document node. -/
def documentElement? (d : Document) : Option NodeId := d.firstElementChild? root

/-- `ancestor` is the node itself or stands above it. -/
def contains (d : Document) (ancestor n : NodeId) : Bool := d.nodes.contains ancestor n

/-- The node hangs under the document node. -/
def isAttached (d : Document) (n : NodeId) : Bool := d.contains root n

/-- A node followed by the elements above it, nearest first, up to the first ancestor that is no element. -/
def elementLineage (d : Document) (n : NodeId) : List NodeId :=
  n :: ((d.nodes.lineage n).drop 1).takeWhile d.isElement

/-- A node followed by the elements above it, nearest first, ending below the document element. -/
def chainBelowTop (d : Document) (n : NodeId) : List NodeId :=
  (d.elementLineage n).takeWhile fun m => d.documentElement? != some m

/-- The nearest element with the tag, in any letter case, on the chain from the node up to below the document
element. -/
def closest? (d : Document) (n : NodeId) (tag : String) : Option NodeId :=
  (d.chainBelowTop n).find? fun m => (d.localName? m).any (Text.equalIgnoringCase · tag)

/-- The text nodes in the subtree of a node, written one after the other. -/
def textContent (d : Document) (n : NodeId) : String :=
  String.join ((d.nodes.preorder n).filterMap fun m => match d.content? m with
    | some (.text text) => some text
    | _ => none)

/-! ### Positions among siblings -/

/-- The number of element siblings with the same tag in front of a node. -/
def positionalIndex (d : Document) (n : NodeId) : Nat :=
  (d.precedingElements n).countP fun m => d.localName? m == d.localName? n

/-- Some other element sibling has the same tag. -/
def hasPositionalConflict (d : Document) (n : NodeId) : Bool :=
  d.positionalIndex n > 0 || (d.followingElements n).any fun m => d.localName? m == d.localName? n

/-- The local name of a node is that of the element it is. -/
theorem localName?_eq_some_iff {d : Document} {n : NodeId} {tag : String} :
    d.localName? n = some tag ↔ ∃ attributes, d.content? n = some (.element tag attributes) := by
  unfold localName?
  split <;> simp_all

end Document

end ElementLocator
