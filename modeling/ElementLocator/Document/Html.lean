import ElementLocator.Document
import ElementLocator.Html.Construction.Rules

/-!
# Documents from markup

The tree of a text of markup becomes a document without its blank texts and its document type. For a fragment, only
what stands in the body is kept, right below a new top element.
-/

namespace ElementLocator.Document

/-- A new last child of a node; its number is the old `size`. -/
def addChild (d : Document) (parent : NodeId) (content : Content) : Document :=
  { nodes := (d.add content).nodes.attachLast parent d.size }

/-- An element with attributes, of which the last one with a name counts. -/
def elementContent (tag : String) (attributes : List (String × String)) : Content :=
  .element (Text.lower tag)
    (attributes.foldl (fun kept (name, value) => setKey (Text.lower name) value kept) [])

/-- What a node of the tree becomes, if it is kept. -/
def contentOf? : Html.Node → Option Content
  | .element _ tag attributes => some (elementContent tag attributes)
  | .text run => if Text.isBlank run then none else some (.text run)
  | .comment text => some (.comment text)
  | .document => none
  | .templateContent => none

/-- Adds copies of nodes of a tree, with what is below them, behind the children of a node. The bound is on the
depth of the tree. -/
def addCopies (tree : Forest Html.Node) : Nat → Document → NodeId → List NodeId → Document
  | 0, d, _, _ => d
  | bound + 1, d, parent, sources =>
    sources.foldl (fun d source =>
      match (tree.value? source).bind contentOf? with
      | none => d
      | some content => addCopies tree bound (d.addChild parent content) d.size (tree.children source)) d

/-- The document that a text of markup writes. -/
def ofHtml (markup : String) : Document :=
  let tree := Html.tree markup
  addCopies tree tree.size empty root (tree.children 0)

/-- Why a text of markup is no fragment. -/
inductive FragmentError where
  | noBody
  deriving Repr, DecidableEq

/-- The error in words. -/
def FragmentError.message : FragmentError → String
  | .noBody => "html5ever produced no <body> for fragment"

/-- The node is an element with the tag of bodies. -/
def isBody (tree : Forest Html.Node) (n : NodeId) : Bool :=
  match tree.value? n with
  | some (.element _ tag _) => tag == "body"
  | _ => false

/-- The document with the content of the body below its top element. -/
def ofHtmlFragment (markup : String) : Except FragmentError Document :=
  let tree := Html.tree markup
  match (tree.preorder 0).find? (isBody tree) with
  | none => .error .noBody
  | some body =>
    let d := empty.addChild root (newElement "html")
    .ok (addCopies tree tree.size d empty.size (tree.children body))

end ElementLocator.Document
