import ElementLocator.Html.Construction.Body

/-!
# Framesets, and what follows the body

A frameset holds frames and nothing else. Behind the body and behind a frameset only comments and white space are
taken where they stand; other content goes back into the body.
-/

namespace ElementLocator.Html.Construction

/-- A start tag for browsers without frames. -/
def insertNoframes (c : Construction) (tag : Tag) : Construction := c.insertHead tag

/-- Behind the body. -/
def afterBody (c : Construction) (token : Token) : Step :=
  match token with
  | .space _ => c.inBody token
  | .comment text => .done (c.appendComment (c.stack.getLast?.getD 0) text)
  | .start tag => if tag.name = "html" then .done (c.mergeRoot tag) else .again { c with mode := .inBody }
  | .close name =>
    if name = "html" then .done { c with mode := .afterAfterBody } else .again { c with mode := .inBody }
  | .eof => .done c
  | _ => .again { c with mode := .inBody }

/-- Inside a frameset. -/
def inFrameset (c : Construction) (token : Token) : Step :=
  match token with
  | .space run => .done (c.insertText run)
  | .comment text => .done (c.insertComment text)
  | .start tag =>
    if tag.name = "html" then .done (c.mergeRoot tag)
    else if tag.name = "frameset" then .done (c.insert tag)
    else if tag.name = "frame" then .done (c.insertVoid tag)
    else if tag.name = "noframes" then .done (c.insertNoframes tag)
    else .done c
  | .close name =>
    if name = "frameset" && c.stack.length != 1 then
      let next := c.pop
      .done (if next.currentIs "frameset" then next else { next with mode := .afterFrameset })
    else .done c
  | _ => .done c

/-- Behind a frameset. -/
def afterFrameset (c : Construction) (token : Token) : Step :=
  match token with
  | .space run => .done (c.insertText run)
  | .comment text => .done (c.insertComment text)
  | .start tag =>
    if tag.name = "html" then .done (c.mergeRoot tag)
    else if tag.name = "noframes" then .done (c.insertNoframes tag)
    else .done c
  | .close name => .done (if name = "html" then { c with mode := .afterAfterFrameset } else c)
  | _ => .done c

/-- Behind the top element. -/
def afterAfterBody (c : Construction) (token : Token) : Step :=
  match token with
  | .space _ => c.inBody token
  | .comment text => .done (c.appendComment 0 text)
  | .start tag => if tag.name = "html" then .done (c.mergeRoot tag) else .again { c with mode := .inBody }
  | .eof => .done c
  | _ => .again { c with mode := .inBody }

/-- Behind the top element of a document with a frameset. -/
def afterAfterFrameset (c : Construction) (token : Token) : Step :=
  match token with
  | .space _ => c.inBody token
  | .comment text => .done (c.appendComment 0 text)
  | .start tag =>
    if tag.name = "html" then .done (c.mergeRoot tag)
    else if tag.name = "noframes" then .done (c.insertNoframes tag)
    else .done c
  | _ => .done c

end ElementLocator.Html.Construction
