import ElementLocator.Html.Construction

/-!
# Formatting elements

A formatting element that was left together with its block is opened again in the next one. When an end tag closes
a formatting element across the borders of blocks, the element is split so that the tree stays a tree.
-/

namespace ElementLocator.Html

namespace FormattingEntry

/-- The entry is a boundary. -/
def isBoundary : FormattingEntry → Bool
  | boundary => true
  | element _ _ => false

/-- The entry is for the given element. -/
def isFor (n : NodeId) : FormattingEntry → Bool
  | boundary => false
  | element m _ => m == n

/-- The entry's tag has the given name. -/
def hasName (name : String) : FormattingEntry → Bool
  | boundary => false
  | element _ tag => tag.name == name

/-- The entry's tag has the same name and the same attributes, in whatever order. -/
def alike (tag : Tag) : FormattingEntry → Bool
  | boundary => false
  | element _ other => other.name == tag.name && other.attributes.isPerm tag.attributes

end FormattingEntry

namespace Construction

/-- The entries behind the last boundary. -/
def recentFormatting (c : Construction) : List FormattingEntry :=
  c.formatting.takeWhile fun entry => !entry.isBoundary

/-- Adds a boundary. -/
def markFormatting (c : Construction) : Construction := { c with formatting := .boundary :: c.formatting }

/-- Forgets the entries up to and including the last boundary. -/
def clearFormatting (c : Construction) : Construction :=
  { c with formatting := (c.formatting.dropWhile fun entry => !entry.isBoundary).tail }

/-- Forgets the entry for an element. -/
def forgetFormatting (c : Construction) (n : NodeId) : Construction :=
  { c with formatting := c.formatting.filter fun entry => !entry.isFor n }

/-- The list without the last element that has the property. -/
def eraseLast (property : FormattingEntry → Bool) (entries : List FormattingEntry) : List FormattingEntry :=
  (entries.reverse.eraseP property).reverse

/-- Inserts a formatting element. Of elements that are alike, only the last three are kept in the list. -/
def insertFormatting (c : Construction) (tag : Tag) : Construction :=
  let recent := c.recentFormatting
  let older := c.formatting.drop recent.length
  let kept := if recent.countP (·.alike tag) ≥ 3 then eraseLast (·.alike tag) recent else recent
  let next := c.insert tag
  { next with formatting := .element c.nodes.size tag :: (kept ++ older) }

/-- The entry does not have to be opened again. -/
def isPresent (c : Construction) : FormattingEntry → Bool
  | .boundary => true
  | .element n _ => c.stack.contains n

/-- Opens an element again; its entry is for the new element from now on. -/
def reopen (c : Construction) : FormattingEntry → Construction
  | .boundary => c
  | .element _ tag =>
    let next := c.insert tag
    { next with formatting := .element c.nodes.size tag :: next.formatting }

/-- Opens the formatting elements again that were left, from the oldest to the latest. -/
def reopenFormatting (c : Construction) : Construction :=
  let left := c.formatting.takeWhile fun entry => !c.isPresent entry
  left.reverse.foldl reopen { c with formatting := c.formatting.drop left.length }

/-- The open elements outside the innermost one with the tag; an element that is special hides those around it. -/
def outsideOf? (c : Construction) (tag : String) : List NodeId → Option (List NodeId)
  | [] => none
  | n :: outer =>
    if c.isTag tag n then some outer
    else if c.isOneOf TagSet.special n then none
    else c.outsideOf? tag outer

/-- An end tag without rules of its own. -/
def closeOrdinary (c : Construction) (tag : String) : Construction :=
  match c.outsideOf? tag c.stack with
  | some outer => { c with stack := outer }
  | none => c

/-- The elements between a formatting element and the block inside it, while they are being split. -/
structure Split where
  state : Construction
  innermost : NodeId
  kept : List NodeId := []
  behind : Option NodeId := none

/-- Puts one node behind the children of another, out of its old place. -/
def move (c : Construction) (n parent : NodeId) : Construction :=
  { c with nodes := (c.nodes.detach n).attachLast parent n }

/-- The list with a new entry in the place of the entry of an element. -/
def replaceEntry (new : FormattingEntry) (n : NodeId) (entries : List FormattingEntry) : List FormattingEntry :=
  entries.map fun entry => if entry.isFor n then new else entry

/-- Splits one element around the block; `count` tells how many were met before it. Elements that do not format,
and all from the fourth on, are merely left. -/
def splitOne (block : NodeId) (split : Split) (count : Nat) (n : NodeId) : Split :=
  let c := split.state
  match c.formatting.find? (·.isFor n) with
  | some (.element _ tag) =>
    if 3 ≤ count then { split with state := c.forgetFormatting n }
    else
      let copy := c.nodes.size
      let made := c.makeElement .html tag
      let renewed := { made with formatting := replaceEntry (.element copy tag) n made.formatting }
      { state := renewed.move split.innermost copy
        innermost := copy
        kept := copy :: split.kept
        behind := if split.innermost = block then some copy else split.behind }
  | _ => split

/-- Splits the elements between a formatting element and the block inside it, from the block outwards. -/
def splitAll (block : NodeId) (split : Split) (count : Nat) : List NodeId → Split
  | [] => split
  | n :: outer => splitAll block (splitOne block split count n) (count + 1) outer

/-- The list with a new entry right behind (that is, later than) the entry of an element. -/
def insertLater (new : FormattingEntry) (n : NodeId) : List FormattingEntry → List FormattingEntry
  | [] => [new]
  | entry :: older => if entry.isFor n then new :: entry :: older else entry :: insertLater new n older

/-- Closes a formatting element around a block that is open inside it: the elements between are split, the block
takes the place of the formatting element, and a copy of the formatting element takes over the block's
children. -/
def liftBlock (c : Construction) (element : NodeId) (tag : Tag) (inner : List NodeId) (block : NodeId)
    (between outer : List NodeId) : Construction :=
  let split := splitAll block { state := c, innermost := block } 0 between
  let c := split.state
  let detached := { c with nodes := c.nodes.detach split.innermost }
  let c := detached.putAt split.innermost (detached.placeIn (outer.head?.getD 0))
  let copy := c.nodes.size
  let children := c.nodes.children block
  let c := children.foldl (fun c child => c.move child copy) (c.makeElement .html tag)
  let c := c.move copy block
  let entry := FormattingEntry.element copy tag
  let formatting := match split.behind with
    | none => replaceEntry entry element c.formatting
    | some previous => (insertLater entry previous c.formatting).filter fun old => !old.isFor element
  { c with formatting, stack := inner ++ copy :: block :: (split.kept.reverse ++ outer) }

/-- One round of closing a formatting element by its end tag; tells also whether another round follows. -/
def closeFormattingOnce (c : Construction) (name : String) : Construction × Bool :=
  match c.recentFormatting.find? (·.hasName name) with
  | some (.element element tag) =>
    if !c.stack.contains element then (c.forgetFormatting element, false)
    else if !c.hasInScope (· == element) then (c, false)
    else
      let above := c.stack.takeWhile (· != element)
      let outer := c.stack.drop (above.length + 1)
      let between := (above.reverse.takeWhile fun n => !c.isOneOf TagSet.special n).reverse
      match (above.take (above.length - between.length)).reverse with
      | [] => ({ c with stack := outer }.forgetFormatting element, false)
      | block :: innerReversed => (c.liftBlock element tag innerReversed.reverse block between outer, true)
  | _ => (c.closeOrdinary name, false)

/-- Rounds of closing a formatting element. -/
def closeFormattingRounds (name : String) : Nat → Construction → Construction
  | 0, c => c
  | bound + 1, c =>
    let (next, more) := c.closeFormattingOnce name
    if more then closeFormattingRounds name bound next else next

/-- Closes a formatting element by its end tag, in at most eight rounds. -/
def closeFormatting (c : Construction) (name : String) : Construction :=
  match c.stack with
  | current :: outer =>
    if c.isTag name current && !c.formatting.any (·.isFor current) then { c with stack := outer }
    else closeFormattingRounds name 8 c
  | [] => c

/-- Closes a link that is still open or to be opened again, because links do not nest. -/
def closeLink (c : Construction) : Construction :=
  match c.recentFormatting.find? (·.hasName "a") with
  | some (.element n _) => ((c.closeFormatting "a").forgetFormatting n).unstack n
  | _ => c

end Construction

end ElementLocator.Html
