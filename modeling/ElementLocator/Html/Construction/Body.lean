import ElementLocator.Html.Construction.Head

/-!
# The body

Most tags open or close an element where they stand. Blocks end paragraphs, items end items, and formatting is
carried on through blocks.
-/

namespace ElementLocator.Html.Construction

/-- The body, if it is open below the top element. -/
def body? (c : Construction) : Option NodeId := (c.stack.reverse[1]?).filter (c.isTag "body")

/-- No frameset can take the place of the body any more. -/
def refuseFrameset (c : Construction) : Construction := { c with framesetAllowed := false }

/-- A frameset takes the place of the body if nothing has been put there yet. -/
def replaceBody (c : Construction) (tag : Tag) : Construction :=
  match c.framesetAllowed, c.body? with
  | true, some body =>
    let next := { c with nodes := c.nodes.detach body, stack := c.stack.drop (c.stack.length - 1) }.insert tag
    { next with mode := .inFrameset }
  | _, _ => c

/-- A later tag of the body adds the attributes that are not there yet. -/
def mergeBody (c : Construction) (tag : Tag) : Construction :=
  match c.body? with
  | some body => if c.hasOpen "template" then c else (c.addAttributes body tag.attributes).refuseFrameset
  | none => c

/-- Opens a form unless one is open already. -/
def openForm (c : Construction) (tag : Tag) : Construction :=
  let inTemplate := c.hasOpen "template"
  if c.form.isSome && !inTemplate then c
  else
    let c := c.closeAnyParagraph
    let next := c.insert tag
    if inTemplate then next else { next with form := some c.nodes.size }

/-- Closes the form. -/
def closeForm (c : Construction) : Construction :=
  if c.hasOpen "template" then
    if c.inScope "form" then (c.closeImplied TagSet.impliedEnds).popThrough ["form"] else c
  else
    let next := { c with form := none }
    match c.form with
    | none => next
    | some form => if c.hasInScope (· == form) then (next.closeImplied TagSet.impliedEnds).unstack form else next

/-- The innermost item that a new item ends. Most special elements hide the items around them. -/
def itemToClose? (c : Construction) (items : List String) : List NodeId → Option String
  | [] => none
  | n :: outer =>
    match items.find? (c.isTag · n) with
    | some item => some item
    | none =>
      if c.isOneOf (TagSet.special.removeAll ["address", "div", "p"]) n then none
      else c.itemToClose? items outer

/-- Opens an item of a list, or of one of the two kinds in a list of definitions. -/
def openItem (c : Construction) (items : List String) (tag : Tag) : Construction :=
  let c := c.refuseFrameset
  let closed := match c.itemToClose? items c.stack with
    | some item => (c.closeImpliedExcept item).popThrough [item]
    | none => c
  closed.closeAnyParagraph.insert tag

/-- Opens a heading, which ends another heading. -/
def openHeading (c : Construction) (tag : Tag) : Construction :=
  let c := c.closeAnyParagraph
  (if c.currentIsOneOf TagSet.headings then c.pop else c).insert tag

/-- Opens a button, which ends another button. -/
def openButton (c : Construction) (tag : Tag) : Construction :=
  let c := if c.inScope "button" then (c.closeImplied TagSet.impliedEnds).popThrough ["button"] else c
  (c.reopenFormatting.insert tag).refuseFrameset

/-- Opens an element that formats and does not nest in itself. -/
def openNobr (c : Construction) (tag : Tag) : Construction :=
  let c := c.reopenFormatting
  (if c.inScope "nobr" then (c.closeFormatting "nobr").reopenFormatting else c).insertFormatting tag

/-- An input that is not shown. -/
def isHidden (tag : Tag) : Bool := (tag.attributes.lookup "type").any (Text.equalIgnoringCase · "hidden")

/-- Opens a selection. -/
def openSelect (c : Construction) (tag : Tag) : Construction :=
  let inTable := [Mode.inTable, .inCaption, .inTableBody, .inRow, .inCell].contains c.mode
  { (c.reopenFormatting.insert tag).refuseFrameset with
    mode := if inTable then .inSelectInTable else .inSelect }

/-- The name of an attribute of a foreign element without the mark of its own vocabulary. -/
def foreignName (name : String) : String :=
  if name = "xmlns:xlink" then "xlink"
  else if ["xlink:actuate", "xlink:arcrole", "xlink:href", "xlink:role", "xlink:show", "xlink:title", "xlink:type",
    "xml:lang", "xml:space"].contains name then
    match Text.cutAtFirst ':' name.toList with
    | some (_, own) => String.ofList own
    | none => name
  else name

/-- Inserts a foreign element, which may be closed by its own tag. -/
def insertForeign (c : Construction) (vocabulary : Vocabulary) (tag : Tag) : Construction :=
  let tag := { tag with attributes := tag.attributes.map fun (name, value) => (foreignName name, value) }
  if tag.selfClosing then c.insertClosed vocabulary tag else c.insertOpen vocabulary tag

/-- A start tag in the body that belongs to running text. -/
def startInText (c : Construction) (tag : Tag) : Construction :=
  if tag.name = "a" then c.closeLink.reopenFormatting.insertFormatting tag
  else if TagSet.formatting.contains tag.name then c.reopenFormatting.insertFormatting tag
  else if tag.name = "nobr" then c.openNobr tag
  else if TagSet.embedded.contains tag.name then
    (c.reopenFormatting.insert tag).markFormatting.refuseFrameset
  else if TagSet.void.contains tag.name then
    let next := c.reopenFormatting.insertVoid tag
    if tag.name = "input" && isHidden tag then next else next.refuseFrameset
  else if tag.name = "image" then (c.reopenFormatting.insertVoid { tag with name := "img" }).refuseFrameset
  else if TagSet.parameters.contains tag.name then c.insertVoid tag
  else if tag.name = "textarea" then
    { c.refuseFrameset.insertRaw tag (.replaceable tag.name) with skipNewline := true }
  else if tag.name = "iframe" then c.refuseFrameset.insertRaw tag (.raw tag.name)
  else if ["noembed", "noscript"].contains tag.name then c.insertRaw tag (.raw tag.name)
  else if tag.name = "select" then c.openSelect tag
  else if ["optgroup", "option"].contains tag.name then
    (if c.currentIs "option" then c.pop else c).reopenFormatting.insert tag
  else if ["rb", "rtc"].contains tag.name then
    (if c.inScope "ruby" then c.closeImplied TagSet.impliedEnds else c).insert tag
  else if ["rp", "rt"].contains tag.name then
    (if c.inScope "ruby" then c.closeImpliedExcept "rtc" else c).insert tag
  else if tag.name = "math" then c.reopenFormatting.insertForeign .mathml tag
  else if tag.name = "svg" then c.reopenFormatting.insertForeign .svg tag
  else if TagSet.neverInBody.contains tag.name then c
  else c.reopenFormatting.insert tag

/-- A start tag in the body. -/
def startInBody (c : Construction) (tag : Tag) : Construction :=
  if tag.name = "html" then c.mergeRoot tag
  else if TagSet.head.contains tag.name then c.insertHead tag
  else if tag.name = "body" then c.mergeBody tag
  else if tag.name = "frameset" then c.replaceBody tag
  else if TagSet.blocks.contains tag.name then c.closeAnyParagraph.insert tag
  else if TagSet.headings.contains tag.name then c.openHeading tag
  else if ["pre", "listing"].contains tag.name then
    { (c.closeAnyParagraph.insert tag).refuseFrameset with skipNewline := true }
  else if tag.name = "form" then c.openForm tag
  else if tag.name = "li" then c.openItem ["li"] tag
  else if ["dd", "dt"].contains tag.name then c.openItem ["dd", "dt"] tag
  else if tag.name = "plaintext" then { c.closeAnyParagraph.insert tag with rawText := some .plain }
  else if tag.name = "button" then c.openButton tag
  else if tag.name = "table" then
    let next := (if c.oldLayout then c else c.closeAnyParagraph).insert tag
    { next.refuseFrameset with mode := .inTable }
  else if tag.name = "hr" then (c.closeAnyParagraph.insertVoid tag).refuseFrameset
  else if tag.name = "xmp" then
    c.closeAnyParagraph.reopenFormatting.refuseFrameset.insertRaw tag (.raw tag.name)
  else c.startInText tag

/-- An end tag in the body, other than that of the body or the top element. -/
def closeInBody (c : Construction) (name : String) : Construction :=
  if TagSet.blockEnds.contains name then
    if c.inScope name then (c.closeImplied TagSet.impliedEnds).popThrough [name] else c
  else if name = "form" then c.closeForm
  else if name = "p" then (if c.hasParagraph then c else c.insertImplied "p").closeParagraph
  else if name = "li" then
    if c.inListScope name then (c.closeImpliedExcept name).popThrough [name] else c
  else if ["dd", "dt"].contains name then
    if c.inScope name then (c.closeImpliedExcept name).popThrough [name] else c
  else if TagSet.headings.contains name then
    if c.hasInScope (c.isOneOf TagSet.headings) then
      (c.closeImplied TagSet.impliedEnds).popThrough TagSet.headings
    else c
  else if TagSet.formattingEnds.contains name then c.closeFormatting name
  else if TagSet.embedded.contains name then
    if c.inScope name then ((c.closeImplied TagSet.impliedEnds).popThrough [name]).clearFormatting else c
  else if name = "br" then c.startInBody { name }
  else if name = "template" then c.closeTemplate
  else c.closeOrdinary name

/-- Inside the body. -/
def inBody (c : Construction) : Token → Step
  | .null => .done c
  | .space run => .done (c.reopenFormatting.insertText run)
  | .text run => .done (c.reopenFormatting.refuseFrameset.insertText run)
  | .comment text => .done (c.insertComment text)
  | .start tag => .done (c.startInBody tag)
  | .close name =>
    if name = "body" then .done (if c.inScope "body" then { c with mode := .afterBody } else c)
    else if name = "html" then
      if c.inScope "body" then .again { c with mode := .afterBody } else .done c
    else .done (c.closeInBody name)
  | .eof => if c.templateModes.isEmpty then .done c else c.endInTemplate
  | .doctype _ => .done c

end ElementLocator.Html.Construction
