import ElementLocator.Forest
import ElementLocator.Html.TagSet
import ElementLocator.Html.Token
import ElementLocator.Html.Token.RawText

/-!
# A tree under construction

Markup becomes a tree token by token. The state between two tokens is the tree so far, the stack of open elements,
the list of formatting elements that are opened again after a break, and a mode that says which rules come next.
Stacks and lists stand with their latest entry first.
-/

namespace ElementLocator.Html

/-- The vocabulary that an element belongs to. -/
inductive Vocabulary where
  | html
  | svg
  | mathml
  deriving Repr, DecidableEq

/-- A node of the tree. A template keeps its content in a tree of its own, whose top is the node right behind
it. -/
inductive Node where
  | document
  | templateContent
  | element (vocabulary : Vocabulary) (tag : String) (attributes : List (String × String))
  | text (run : String)
  | comment (text : String)
  deriving Repr, DecidableEq

/-- Which rules come next. -/
inductive Mode where
  | initial
  | beforeHtml
  | beforeHead
  | inHead
  | afterHead
  | inBody
  | inRawText
  | inTable
  | inTableText
  | inCaption
  | inColumnGroup
  | inTableBody
  | inRow
  | inCell
  | inSelect
  | inSelectInTable
  | inTemplate
  | afterBody
  | inFrameset
  | afterFrameset
  | afterAfterBody
  | afterAfterFrameset
  deriving Repr, DecidableEq

/-- An entry in the list of formatting elements: an element with its tag, or a boundary. -/
inductive FormattingEntry where
  | boundary
  | element (node : NodeId) (tag : Tag)
  deriving Repr, DecidableEq

/-- The state between two tokens. -/
structure Construction where
  nodes : Forest Node := Forest.empty.push .document
  mode : Mode := .initial
  returnMode : Mode := .inBody
  templateModes : List Mode := []
  stack : List NodeId := []
  formatting : List FormattingEntry := []
  head : Option NodeId := none
  form : Option NodeId := none
  framesetAllowed : Bool := true
  fostering : Bool := false
  tableText : List Token := []
  skipNewline : Bool := false
  oldLayout : Bool := false
  rawText : Option RawText := none

/-- What the rules of a mode make of a token: it is used up, or the rules of the new mode take it. -/
inductive Step where
  | done (next : Construction)
  | again (next : Construction)

namespace Construction

/-! ### Open elements -/

/-- The vocabulary and the tag of an element. -/
def element? (c : Construction) (n : NodeId) : Option (Vocabulary × String) :=
  match c.nodes.value? n with
  | some (.element vocabulary tag _) => some (vocabulary, tag)
  | _ => none

/-- The node is an HTML element with one of the given tags. -/
def isOneOf (c : Construction) (tags : List String) (n : NodeId) : Bool :=
  match c.element? n with
  | some (.html, tag) => tags.contains tag
  | _ => false

/-- The node is the HTML element with the given tag. -/
def isTag (c : Construction) (tag : String) (n : NodeId) : Bool := c.element? n == some (.html, tag)

/-- The current node is an HTML element with one of the given tags. -/
def currentIsOneOf (c : Construction) (tags : List String) : Bool := c.stack.head?.any (c.isOneOf tags)

/-- The current node is the HTML element with the given tag. -/
def currentIs (c : Construction) (tag : String) : Bool := c.stack.head?.any (c.isTag tag)

/-- Some open element has the given tag. -/
def hasOpen (c : Construction) (tag : String) : Bool := c.stack.any (c.isTag tag)

/-- Characters inside the element are text of MathML. -/
def isMathText (c : Construction) (n : NodeId) : Bool :=
  match c.element? n with
  | some (.mathml, tag) => ["mi", "mo", "mn", "ms", "mtext"].contains tag
  | _ => false

/-- The element of SVG has HTML inside. -/
def holdsHtml (c : Construction) (n : NodeId) : Bool :=
  match c.element? n with
  | some (.svg, tag) => ["foreignobject", "desc", "title"].contains tag
  | _ => false

/-- An element with the property stands on the stack in front of the first boundary, which may be that element. -/
def reaches (isBoundary property : NodeId → Bool) : List NodeId → Bool
  | [] => false
  | n :: outer => property n || (!isBoundary n && reaches isBoundary property outer)

/-- The element bounds what an end tag can reach. -/
def isScopeBoundary (c : Construction) (more : List String) (n : NodeId) : Bool :=
  c.isOneOf (TagSet.scope ++ more) n || c.isMathText n || c.holdsHtml n

/-- An open element with the property is in scope. -/
def hasInScope (c : Construction) (property : NodeId → Bool) : Bool :=
  reaches (c.isScopeBoundary []) property c.stack

/-- An open element with the tag is in scope. -/
def inScope (c : Construction) (tag : String) : Bool := c.hasInScope (c.isTag tag)

/-- An open element with the tag is in the scope of list items. -/
def inListScope (c : Construction) (tag : String) : Bool :=
  reaches (c.isScopeBoundary ["ol", "ul"]) (c.isTag tag) c.stack

/-- A paragraph is open in the scope of buttons. -/
def hasParagraph (c : Construction) : Bool := reaches (c.isScopeBoundary ["button"]) (c.isTag "p") c.stack

/-- An open element with one of the tags is in the scope of tables. -/
def inTableScope (c : Construction) (tags : List String) : Bool :=
  reaches (c.isOneOf TagSet.tableScope) (c.isOneOf tags) c.stack

/-- A selection is open with nothing but options inside. -/
def inSelectScope (c : Construction) : Bool :=
  reaches (fun n => !c.isOneOf ["optgroup", "option"] n) (c.isTag "select") c.stack

/-- Leaves the current element. -/
def pop (c : Construction) : Construction := { c with stack := c.stack.tail }

/-- Leaves open elements up to and including the first one with one of the tags. -/
def popThrough (c : Construction) (tags : List String) : Construction :=
  { c with stack := (c.stack.dropWhile fun n => !c.isOneOf tags n).tail }

/-- Leaves open elements until the current one has one of the tags. -/
def popTo (c : Construction) (tags : List String) : Construction :=
  { c with stack := c.stack.dropWhile fun n => !c.isOneOf tags n }

/-- Leaves elements whose end tags may be left out. -/
def closeImplied (c : Construction) (tags : List String) : Construction :=
  { c with stack := c.stack.dropWhile (c.isOneOf tags) }

/-- Leaves elements whose end tags may be left out, but none with the given tag. -/
def closeImpliedExcept (c : Construction) (tag : String) : Construction :=
  c.closeImplied (TagSet.impliedEnds.filter (· != tag))

/-- Takes an element out of the stack. -/
def unstack (c : Construction) (n : NodeId) : Construction := { c with stack := c.stack.filter (· != n) }

/-- Leaves the open paragraph. -/
def closeParagraph (c : Construction) : Construction := (c.closeImpliedExcept "p").popThrough ["p"]

/-- Leaves the open paragraph if there is one. -/
def closeAnyParagraph (c : Construction) : Construction := if c.hasParagraph then c.closeParagraph else c

/-! ### Inserting -/

/-- Where a node goes: behind the children of another, or in front of one of them. -/
inductive Place where
  | lastIn (parent : NodeId)
  | before (parent next : NodeId)

/-- The place inside an element; that of a template is in its content. -/
def inside (c : Construction) (n : NodeId) : Place := .lastIn (if c.isTag "template" n then n + 1 else n)

/-- The place in front of the table that is open, or inside the template that is. -/
def fosterPlace (c : Construction) : List NodeId → Place
  | [] => .lastIn 0
  | [n] => c.inside n
  | n :: m :: outer =>
    if c.isTag "template" n then c.inside n
    else if c.isTag "table" n then
      match c.nodes.parent? n with
      | some parent => .before parent n
      | none => .lastIn m
    else c.fosterPlace (m :: outer)

/-- The place for a new node that belongs inside an element. What does not belong into a table goes in front of
it. -/
def placeIn (c : Construction) (n : NodeId) : Place :=
  if c.fostering && c.isOneOf TagSet.tableParts n then c.fosterPlace c.stack else c.inside n

/-- The place for a new node. -/
def place (c : Construction) : Place := c.placeIn (c.stack.head?.getD 0)

/-- Puts a node without parent at a place. -/
def putAt (c : Construction) (n : NodeId) : Place → Construction
  | .lastIn parent => { c with nodes := c.nodes.attachLast parent n }
  | .before parent next => { c with nodes := c.nodes.attachBefore parent next n }

/-- Makes a node, which gets the old size of the forest as its number. -/
def make (c : Construction) (node : Node) : Construction := { c with nodes := c.nodes.push node }

/-- Makes an element; a template gets its content too. -/
def makeElement (c : Construction) (vocabulary : Vocabulary) (tag : Tag) : Construction :=
  let made := c.make (.element vocabulary tag.name tag.attributes)
  if vocabulary = .html ∧ tag.name = "template" then made.make .templateContent else made

/-- The child that a text at the place would follow. -/
def neighbour? (c : Construction) : Place → Option NodeId
  | .lastIn parent => (c.nodes.children parent).getLast?
  | .before parent next => ((c.nodes.children parent).takeWhile (· != next)).getLast?

/-- Puts a text at the current place; it is joined to a text in front of it. -/
def insertText (c : Construction) (run : List Char) : Construction :=
  let text := String.ofList run
  let place := c.place
  let extended? := (c.neighbour? place).bind fun n => match c.nodes.value? n with
    | some (.text before) => some (n, before ++ text)
    | _ => none
  match extended? with
  | some (n, whole) => { c with nodes := c.nodes.modifyValue n fun _ => .text whole }
  | none => (c.make (.text text)).putAt c.nodes.size place

/-- Puts a comment at the current place. -/
def insertComment (c : Construction) (text : String) : Construction :=
  (c.make (.comment text)).putAt c.nodes.size c.place

/-- Puts a comment behind the children of a node. -/
def appendComment (c : Construction) (n : NodeId) (text : String) : Construction :=
  (c.make (.comment text)).putAt c.nodes.size (.lastIn n)

/-- Puts a new element at the current place. -/
def insertClosed (c : Construction) (vocabulary : Vocabulary) (tag : Tag) : Construction :=
  (c.makeElement vocabulary tag).putAt c.nodes.size c.place

/-- Puts a new element at the current place and opens it. -/
def insertOpen (c : Construction) (vocabulary : Vocabulary) (tag : Tag) : Construction :=
  let next := c.insertClosed vocabulary tag
  { next with stack := c.nodes.size :: next.stack }

/-- Puts a new HTML element at the current place and opens it. -/
def insert (c : Construction) (tag : Tag) : Construction := c.insertOpen .html tag

/-- Puts a new HTML element without content at the current place. -/
def insertVoid (c : Construction) (tag : Tag) : Construction := c.insertClosed .html tag

/-- Puts and opens an HTML element for which no tag was written. -/
def insertImplied (c : Construction) (name : String) : Construction := c.insert { name }

/-- Opens the top element. -/
def insertRoot (c : Construction) (attributes : List (String × String)) : Construction :=
  let next := (c.makeElement .html { name := "html", attributes }).putAt c.nodes.size (.lastIn 0)
  { next with stack := c.nodes.size :: next.stack }

/-- Gives an element the attributes that it does not have yet. -/
def addAttributes (c : Construction) (n : NodeId) (attributes : List (String × String)) : Construction :=
  { c with nodes := c.nodes.modifyValue n fun node => match node with
      | .element vocabulary tag old =>
        .element vocabulary tag (old ++ attributes.filter fun (name, _) => (old.lookup name).isNone)
      | other => other }

/-- Inserts an element whose inside is raw text. -/
def insertRaw (c : Construction) (tag : Tag) (kind : RawText) : Construction :=
  let next := c.insert tag
  { next with returnMode := c.mode, mode := .inRawText, rawText := some kind }

/-! ### Modes -/

/-- The mode inside a selection, given the elements around it. -/
def selectMode (c : Construction) (outer : List NodeId) : Mode :=
  match outer.find? (c.isOneOf ["template", "table"]) with
  | some n => if c.isTag "table" n then .inSelectInTable else .inSelect
  | none => .inSelect

/-- The mode that an open HTML element calls for, if it calls for one. -/
def modeOf? (c : Construction) (tag : String) (outer : List NodeId) : Option Mode :=
  match tag with
  | "select" => some (c.selectMode outer)
  | "td" => if outer.isEmpty then none else some .inCell
  | "th" => if outer.isEmpty then none else some .inCell
  | "tr" => some .inRow
  | "tbody" => some .inTableBody
  | "thead" => some .inTableBody
  | "tfoot" => some .inTableBody
  | "caption" => some .inCaption
  | "colgroup" => some .inColumnGroup
  | "table" => some .inTable
  | "template" => c.templateModes.head?
  | "head" => if outer.isEmpty then none else some .inHead
  | "body" => some .inBody
  | "frameset" => some .inFrameset
  | "html" => some (if c.head.isNone then .beforeHead else .afterHead)
  | _ => none

/-- The mode that the innermost of some open elements calls for. -/
def modeFor (c : Construction) : List NodeId → Mode
  | [] => .inBody
  | n :: outer =>
    let called := match c.element? n with
      | some (.html, tag) => c.modeOf? tag outer
      | _ => none
    called.getD (c.modeFor outer)

/-- Chooses the mode by the open elements. -/
def resetMode (c : Construction) : Construction := { c with mode := c.modeFor c.stack }

end Construction

end ElementLocator.Html
