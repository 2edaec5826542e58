import ElementLocator.Html.Construction.Table

/-!
# Selections and templates

A selection holds options, rules between them and texts; other tags are dropped or end it. A template takes the rules that its first
tag calls for.
-/

namespace ElementLocator.Html.Construction

/-- Closes the open selection. -/
def closeSelect (c : Construction) : Construction := (c.popThrough ["select"]).resetMode

/-- Leaves the option that is open. -/
def leaveOption (c : Construction) : Construction := if c.currentIs "option" then c.pop else c

/-- Leaves the group of options that is open. -/
def leaveGroup (c : Construction) : Construction := if c.currentIs "optgroup" then c.pop else c

/-- An option is open directly inside a group. -/
def isOptionInGroup (c : Construction) : Bool := c.currentIs "option" && c.stack.tail.head?.any (c.isTag "optgroup")

/-- Inside a selection. -/
def inSelect (c : Construction) (token : Token) : Step :=
  match token with
  | .space run => .done (c.insertText run)
  | .text run => .done (c.insertText run)
  | .comment text => .done (c.insertComment text)
  | .start tag =>
    if tag.name = "html" then .done (c.mergeRoot tag)
    else if tag.name = "option" then .done (c.leaveOption.insert tag)
    else if tag.name = "optgroup" then .done (c.leaveOption.leaveGroup.insert tag)
    else if tag.name = "hr" then .done (c.leaveOption.leaveGroup.insertVoid tag)
    else if tag.name = "select" then .done (if c.inSelectScope then c.closeSelect else c)
    else if ["input", "keygen", "textarea"].contains tag.name then
      if c.inSelectScope then .again c.closeSelect else .done c
    else if ["script", "template"].contains tag.name then .done (c.insertHead tag)
    else .done c
  | .close name =>
    if name = "optgroup" then .done (if c.isOptionInGroup then c.pop.leaveGroup else c.leaveGroup)
    else if name = "option" then .done c.leaveOption
    else if name = "select" then .done (if c.inSelectScope then c.closeSelect else c)
    else if name = "template" then .done c.closeTemplate
    else .done c
  | .eof => c.inBody token
  | _ => .done c

/-- Tags of a table that end a selection inside it. -/
def endsSelect : List String := ["caption", "table", "tbody", "tfoot", "thead", "tr", "td", "th"]

/-- Inside a selection inside a table. -/
def inSelectInTable (c : Construction) (token : Token) : Step :=
  match token with
  | .start tag => if endsSelect.contains tag.name then .again c.closeSelect else c.inSelect token
  | .close name =>
    if endsSelect.contains name then
      if c.inTableScope [name] then .again c.closeSelect else .done c
    else c.inSelect token
  | _ => c.inSelect token

/-- The template goes on by the rules of a mode. -/
def continueTemplate (c : Construction) (mode : Mode) : Step :=
  .again { c with mode, templateModes := mode :: c.templateModes.tail }

/-- Inside a template whose rules are not known yet. -/
def inTemplate (c : Construction) (token : Token) : Step :=
  match token with
  | .space _ => c.inBody token
  | .text _ => c.inBody token
  | .comment _ => c.inBody token
  | .start tag =>
    if TagSet.head.contains tag.name then .done (c.insertHead tag)
    else if (["caption", "colgroup"] ++ TagSet.tableSections).contains tag.name then c.continueTemplate .inTable
    else if tag.name = "col" then c.continueTemplate .inColumnGroup
    else if tag.name = "tr" then c.continueTemplate .inTableBody
    else if TagSet.cells.contains tag.name then c.continueTemplate .inRow
    else c.continueTemplate .inBody
  | .close name => .done (if name = "template" then c.closeTemplate else c)
  | .eof => c.endInTemplate
  | _ => .done c

end ElementLocator.Html.Construction
