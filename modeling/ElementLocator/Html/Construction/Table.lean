import ElementLocator.Html.Construction.Body

/-!
# Tables

The parts of a table are opened when they are first needed. What does not belong into a table is put in front of it,
by the rules of the body.
-/

namespace ElementLocator.Html.Construction

/-- Takes a token by the rules of the body, with new nodes in front of the table. -/
def foster (c : Construction) (token : Token) : Step :=
  match { c with fostering := true }.inBody token with
  | .done next => .done { next with fostering := false }
  | .again next => .again { next with fostering := false }

/-- Characters in a table are kept until it is known whether all of them are white space. -/
def charsInTable (c : Construction) (token : Token) : Step :=
  if c.currentIsOneOf TagSet.tableParts then .again { c with returnMode := c.mode, mode := .inTableText }
  else c.foster token

/-- Closes the table, if one is open in scope. -/
def closeTable (c : Construction) : Construction := (c.popThrough ["table"]).resetMode

/-- A start tag in a table that is a part of it, up to the mode in which it is taken or was taken. -/
def startInTable? (c : Construction) (tag : Tag) : Option Step :=
  let cleared := c.popTo TagSet.tableScope
  if tag.name = "caption" then some (.done { cleared.markFormatting.insert tag with mode := .inCaption })
  else if tag.name = "colgroup" then some (.done { cleared.insert tag with mode := .inColumnGroup })
  else if tag.name = "col" then some (.again { cleared.insertImplied "colgroup" with mode := .inColumnGroup })
  else if TagSet.tableSections.contains tag.name then
    some (.done { cleared.insert tag with mode := .inTableBody })
  else if ["td", "th", "tr"].contains tag.name then
    some (.again { cleared.insertImplied "tbody" with mode := .inTableBody })
  else if tag.name = "table" then
    some (if c.inTableScope ["table"] then .again c.closeTable else .done c)
  else if ["style", "script", "template"].contains tag.name then some (.done (c.insertHead tag))
  else if tag.name = "input" then if isHidden tag then some (.done (c.insertVoid tag)) else none
  else if tag.name = "form" then
    some (.done (if c.hasOpen "template" || c.form.isSome then c
      else { c.insertVoid tag with form := some c.nodes.size }))
  else none

/-- Directly inside a table. -/
def inTable (c : Construction) (token : Token) : Step :=
  match token with
  | .null => c.charsInTable token
  | .space _ => c.charsInTable token
  | .text _ => c.charsInTable token
  | .comment text => .done (c.insertComment text)
  | .start tag => (c.startInTable? tag).getD (c.foster token)
  | .close name =>
    if name = "table" then .done (if c.inTableScope ["table"] then c.closeTable else c)
    else if ["body", "caption", "col", "colgroup", "html", "tbody", "td", "tfoot", "th", "thead", "tr"].contains name
    then .done c
    else if name = "template" then .done c.closeTemplate
    else c.foster token
  | .eof => c.inBody token
  | .doctype _ => .done c

/-- The construction that a step leaves, where no other rules come into play. -/
def after : Step → Construction
  | .done next => next
  | .again next => next

/-- Puts the characters that were kept into the table, or all of them in front of it. -/
def flushTableText (c : Construction) : Construction :=
  let kept := c.tableText.reverse
  let c := { c with tableText := [] }
  if kept.all fun token => token matches .space _ then kept.foldl (fun c token => c.insertText token.chars) c
  else kept.foldl (fun c token => after (c.foster token)) c

/-- Among the characters of a table. -/
def inTableText (c : Construction) (token : Token) : Step :=
  match token with
  | .null => .done c
  | .space _ => .done { c with tableText := token :: c.tableText }
  | .text _ => .done { c with tableText := token :: c.tableText }
  | _ => .again { c.flushTableText with mode := c.returnMode }

/-- Closes the caption. -/
def closeCaption (c : Construction) : Construction :=
  { ((c.closeImplied TagSet.impliedEnds).popThrough ["caption"]).clearFormatting with mode := .inTable }

/-- Inside a caption. -/
def inCaption (c : Construction) (token : Token) : Step :=
  let leave := if c.inTableScope ["caption"] then .again c.closeCaption else .done c
  match token with
  | .start tag =>
    if ["caption", "col", "colgroup", "tbody", "td", "tfoot", "th", "thead", "tr"].contains tag.name then leave
    else c.inBody token
  | .close name =>
    if name = "table" then leave
    else if name = "caption" then .done (if c.inTableScope ["caption"] then c.closeCaption else c)
    else if ["body", "col", "colgroup", "html", "tbody", "td", "tfoot", "th", "thead", "tr"].contains name then
      .done c
    else c.inBody token
  | _ => c.inBody token

/-- Inside a group of columns. -/
def inColumnGroup (c : Construction) (token : Token) : Step :=
  let left := { c.pop with mode := .inTable }
  let leave := if c.currentIs "colgroup" then .again left else .done c
  match token with
  | .space run => .done (c.insertText run)
  | .comment text => .done (c.insertComment text)
  | .start tag =>
    if tag.name = "html" then .done (c.mergeRoot tag)
    else if tag.name = "col" then .done (c.insertVoid tag)
    else if tag.name = "template" then .done (c.insertHead tag)
    else leave
  | .close name =>
    if name = "colgroup" then .done (if c.currentIs "colgroup" then left else c)
    else if name = "col" then .done c
    else if name = "template" then .done c.closeTemplate
    else leave
  | .eof => c.inBody token
  | _ => leave

/-- Inside a section of a table. -/
def inTableBody (c : Construction) (token : Token) : Step :=
  let cleared := c.popTo TagSet.rowParents
  let left := { cleared.pop with mode := .inTable }
  let leave := if c.inTableScope ["table", "tbody", "tfoot"] then .again left else .done c
  match token with
  | .start tag =>
    if tag.name = "tr" then .done { cleared.insert tag with mode := .inRow }
    else if TagSet.cells.contains tag.name then .again { cleared.insertImplied "tr" with mode := .inRow }
    else if (["caption", "col", "colgroup"] ++ TagSet.tableSections).contains tag.name then leave
    else c.inTable token
  | .close name =>
    if TagSet.tableSections.contains name then .done (if c.inTableScope [name] then left else c)
    else if name = "table" then leave
    else if ["body", "caption", "col", "colgroup", "html", "td", "th", "tr"].contains name then .done c
    else c.inTable token
  | _ => c.inTable token

/-- Inside a row of a table. -/
def inRow (c : Construction) (token : Token) : Step :=
  let cleared := c.popTo TagSet.cellParents
  let left := { cleared.pop with mode := .inTableBody }
  let leave := if c.inTableScope ["tr"] then .again left else .done c
  match token with
  | .start tag =>
    if TagSet.cells.contains tag.name then .done { (cleared.insert tag).markFormatting with mode := .inCell }
    else if (["caption", "col", "colgroup", "tr"] ++ TagSet.tableSections).contains tag.name then leave
    else c.inTable token
  | .close name =>
    if name = "tr" then .done (if c.inTableScope ["tr"] then left else c)
    else if name = "table" then leave
    else if TagSet.tableSections.contains name then if c.inTableScope [name] then leave else .done c
    else if ["body", "caption", "col", "colgroup", "html", "td", "th"].contains name then .done c
    else c.inTable token
  | _ => c.inTable token

/-- Closes the cell. -/
def closeCell (c : Construction) (tags : List String) : Construction :=
  { ((c.closeImplied TagSet.impliedEnds).popThrough tags).clearFormatting with mode := .inRow }

/-- Inside a cell of a table. -/
def inCell (c : Construction) (token : Token) : Step :=
  match token with
  | .start tag =>
    if (["caption", "col", "colgroup", "td", "th", "tr"] ++ TagSet.tableSections).contains tag.name then
      if c.inTableScope TagSet.cells then .again (c.closeCell TagSet.cells) else .done c
    else c.inBody token
  | .close name =>
    if TagSet.cells.contains name then .done (if c.inTableScope [name] then c.closeCell [name] else c)
    else if ["body", "caption", "col", "colgroup", "html"].contains name then .done c
    else if TagSet.tableParts.contains name then
      if c.inTableScope [name] then .again (c.closeCell TagSet.cells) else .done c
    else c.inBody token
  | _ => c.inBody token

end ElementLocator.Html.Construction
