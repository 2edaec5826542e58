import ElementLocator.Html.Construction.Formatting

/-!
# From the start of a document to its body

The top element, the head and the body are opened when they are first needed, whether their tags are written or not.
Tags that belong to the head go there also right behind it.
-/

namespace ElementLocator.Html.Construction

/-- End tags that open what is missing instead of being dropped. -/
def opensMissing : List String := ["head", "body", "html", "br"]

/-- A later tag of the top element adds the attributes that are not there yet. -/
def mergeRoot (c : Construction) (tag : Tag) : Construction :=
  match c.stack.getLast? with
  | some top => if c.hasOpen "template" then c else c.addAttributes top tag.attributes
  | none => c

/-- Opens a template. -/
def openTemplate (c : Construction) (tag : Tag) : Construction :=
  let next := (c.insert tag).markFormatting
  { next with framesetAllowed := false, mode := .inTemplate, templateModes := .inTemplate :: c.templateModes }

/-- Closes the open template. -/
def closeTemplate (c : Construction) : Construction :=
  if c.hasOpen "template" then
    let next := ((c.closeImplied TagSet.templateEnds).popThrough ["template"]).clearFormatting
    { next with templateModes := next.templateModes.tail }.resetMode
  else c

/-- A text that ends inside a template closes it. -/
def endInTemplate (c : Construction) : Step :=
  if c.hasOpen "template" then
    let next := (c.popThrough ["template"]).clearFormatting
    .again { next with templateModes := next.templateModes.tail }.resetMode
  else .done c

/-- A start tag that belongs to the head. -/
def insertHead (c : Construction) (tag : Tag) : Construction :=
  if TagSet.headVoid.contains tag.name then c.insertVoid tag
  else if tag.name = "title" then c.insertRaw tag (.replaceable tag.name)
  else if tag.name = "script" then c.insertRaw tag .script
  else if tag.name = "template" then c.openTemplate tag
  else c.insertRaw tag (.raw tag.name)

/-- Before anything was read. A document without a type is laid out in the old way. -/
def initial (c : Construction) : Token → Step
  | .space _ => .done c
  | .comment text => .done (c.appendComment 0 text)
  | _ => .again { c with oldLayout := true, mode := .beforeHtml }

/-- Before the top element. -/
def beforeHtml (c : Construction) (token : Token) : Step :=
  let missing := { c.insertRoot [] with mode := .beforeHead }
  match token with
  | .space _ => .done c
  | .comment text => .done (c.appendComment 0 text)
  | .start tag =>
    if tag.name = "html" then .done { c.insertRoot tag.attributes with mode := .beforeHead } else .again missing
  | .close name => if opensMissing.contains name then .again missing else .done c
  | _ => .again missing

/-- Opens the head. -/
def openHead (c : Construction) (tag : Tag) : Construction :=
  { c.insert tag with head := some c.nodes.size, mode := .inHead }

/-- Before the head. -/
def beforeHead (c : Construction) (token : Token) : Step :=
  let missing := c.openHead { name := "head" }
  match token with
  | .space _ => .done c
  | .comment text => .done (c.insertComment text)
  | .start tag =>
    if tag.name = "html" then .done (c.mergeRoot tag)
    else if tag.name = "head" then .done (c.openHead tag)
    else .again missing
  | .close name => if opensMissing.contains name then .again missing else .done c
  | _ => .again missing

/-- Inside the head. -/
def inHead (c : Construction) (token : Token) : Step :=
  let left := { c.pop with mode := .afterHead }
  match token with
  | .space run => .done (c.insertText run)
  | .comment text => .done (c.insertComment text)
  | .start tag =>
    if tag.name = "html" then .done (c.mergeRoot tag)
    else if tag.name = "head" then .done c
    else if (TagSet.head ++ ["noscript"]).contains tag.name then .done (c.insertHead tag)
    else .again left
  | .close name =>
    if name = "head" then .done left
    else if opensMissing.contains name then .again left
    else if name = "template" then .done c.closeTemplate
    else .done c
  | _ => .again left

/-- A start tag of the head that stands behind it. -/
def insertIntoHead (c : Construction) (tag : Tag) : Construction :=
  match c.head with
  | some head => ({ c with stack := head :: c.stack }.insertHead tag).unstack head
  | none => c

/-- Behind the head. -/
def afterHead (c : Construction) (token : Token) : Step :=
  let missing := { c.insertImplied "body" with mode := .inBody }
  match token with
  | .space run => .done (c.insertText run)
  | .comment text => .done (c.insertComment text)
  | .start tag =>
    if tag.name = "html" then .done (c.mergeRoot tag)
    else if tag.name = "body" then .done { c.insert tag with framesetAllowed := false, mode := .inBody }
    else if tag.name = "frameset" then .done { c.insert tag with mode := .inFrameset }
    else if TagSet.head.contains tag.name then .done (c.insertIntoHead tag)
    else if tag.name = "head" then .done c
    else .again missing
  | .close name =>
    if name = "template" then .done c.closeTemplate
    else if ["body", "html", "br"].contains name then .again missing
    else .done c
  | _ => .again missing

/-- Inside raw text. -/
def inRawText (c : Construction) : Token → Step
  | .space run => .done (c.insertText run)
  | .text run => .done (c.insertText run)
  | .close _ => .done { c.pop with mode := c.returnMode }
  | .eof => .again { c.pop with mode := c.returnMode }
  | _ => .done c

end ElementLocator.Html.Construction
