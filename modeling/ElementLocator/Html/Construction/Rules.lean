import ElementLocator.Html.Construction.Frameset
import ElementLocator.Html.Construction.Select
import ElementLocator.Html.Source
import ElementLocator.Html.Token.Lexer

/-!
# From markup to a tree

Tokens are taken one after the other by the rules of the current mode, or by those of foreign elements inside SVG
and MathML. A start tag can make the text behind it raw, so cutting and construction go hand in hand.
-/

namespace ElementLocator.Html

namespace Construction

/-- Takes a token by the rules of the mode. -/
def byMode (c : Construction) (token : Token) : Step :=
  match c.mode with
  | .initial => c.initial token
  | .beforeHtml => c.beforeHtml token
  | .beforeHead => c.beforeHead token
  | .inHead => c.inHead token
  | .afterHead => c.afterHead token
  | .inBody => c.inBody token
  | .inRawText => c.inRawText token
  | .inTable => c.inTable token
  | .inTableText => c.inTableText token
  | .inCaption => c.inCaption token
  | .inColumnGroup => c.inColumnGroup token
  | .inTableBody => c.inTableBody token
  | .inRow => c.inRow token
  | .inCell => c.inCell token
  | .inSelect => c.inSelect token
  | .inSelectInTable => c.inSelectInTable token
  | .inTemplate => c.inTemplate token
  | .afterBody => c.afterBody token
  | .inFrameset => c.inFrameset token
  | .afterFrameset => c.afterFrameset token
  | .afterAfterBody => c.afterAfterBody token
  | .afterAfterFrameset => c.afterAfterFrameset token

/-- The current node is a foreign element. -/
def inForeign (c : Construction) : Bool :=
  c.stack.head?.any fun n => match c.element? n with
    | some (.html, _) => false
    | some _ => true
    | none => false

/-- The element is an annotation in MathML that holds HTML. -/
def annotatesInHtml (c : Construction) (n : NodeId) : Bool :=
  match c.nodes.value? n with
  | some (.element .mathml "annotation-xml" attributes) =>
    (attributes.lookup "encoding").any fun encoding =>
      Text.equalIgnoringCase encoding "text/html" || Text.equalIgnoringCase encoding "application/xhtml+xml"
  | _ => false

/-- The rules of HTML take a token although the current node is the given foreign element. -/
def takesHtml (c : Construction) (n : NodeId) (token : Token) : Bool :=
  let annotates := c.element? n == some (.mathml, "annotation-xml")
  match token with
  | .eof => true
  | .space _ => c.isMathText n || c.holdsHtml n || c.annotatesInHtml n
  | .text _ => c.isMathText n || c.holdsHtml n || c.annotatesInHtml n
  | .null => c.isMathText n || c.holdsHtml n || c.annotatesInHtml n
  | .start tag =>
    (c.isMathText n && !(["mglyph", "malignmark"].contains tag.name)) || c.holdsHtml n ||
      (annotates && (tag.name = "svg" || c.annotatesInHtml n))
  | _ => false

/-- The rules of foreign elements take the token. -/
def isForeign (c : Construction) (token : Token) : Bool :=
  c.inForeign && !c.stack.head?.any (c.takesHtml · token)

/-- The node is an HTML element, or a foreign one with HTML inside. -/
def isHtmlOrHoldsIt (c : Construction) (n : NodeId) : Bool :=
  (c.element? n).any (·.1 == .html) || c.isMathText n || c.holdsHtml n

/-- The tag ends foreign elements. A font does so only if it says how it looks. -/
def leavesForeign (tag : Tag) : Bool :=
  TagSet.leavesForeign.contains tag.name ||
    (tag.name = "font" && ["color", "face", "size"].any fun name => (tag.attributes.lookup name).isSome)

/-- Leaves foreign elements and goes on by the rules of the mode. -/
def leaveForeign (c : Construction) (token : Token) : Step :=
  { c with stack := c.stack.dropWhile fun n => !c.isHtmlOrHoldsIt n }.byMode token

/-- An end tag inside foreign elements closes the innermost one with its name, unless an HTML element comes before
it. -/
def closeForeign (c : Construction) (name : String) (isCurrent : Bool) : List NodeId → Step
  | [] => .done c
  | [_] => .done c
  | n :: m :: outer =>
    match c.element? n with
    | some (vocabulary, tag) =>
      if !isCurrent && vocabulary == .html then c.byMode (.close name)
      else if tag = name then .done { c with stack := m :: outer }
      else c.closeForeign name false (m :: outer)
    | none => c.closeForeign name false (m :: outer)

/-- Takes a token by the rules of foreign elements. -/
def byForeign (c : Construction) (token : Token) : Step :=
  match token with
  | .null => .done (c.insertText [replacement])
  | .space run => .done (c.insertText run)
  | .text run => .done (c.refuseFrameset.insertText run)
  | .comment text => .done (c.insertComment text)
  | .start tag =>
    if leavesForeign tag then c.leaveForeign token
    else
      let vocabulary := ((c.stack.head?.bind c.element?).map (·.1)).getD .html
      .done (c.insertForeign vocabulary tag)
  | .close name =>
    if ["br", "p"].contains name then c.leaveForeign token else c.closeForeign name true c.stack
  | _ => .done c

/-- Takes a token by the rules that apply. -/
def step (c : Construction) (token : Token) : Step :=
  if c.isForeign token then c.byForeign token else c.byMode token

/-- Takes a token until it is used up. The bound is on the number of modes that take it. -/
def settle (token : Token) : Nat → Construction → Construction
  | 0, c => c
  | bound + 1, c => match c.step token with
    | .done next => next
    | .again next => settle token bound next

/-- Takes a token. Only the first document type counts, and only in front of everything else. -/
def take (c : Construction) (token : Token) : Construction :=
  match token with
  | .doctype oldLayout => if c.mode = .initial then { c with oldLayout, mode := .beforeHtml } else c
  | _ => settle token (4 * c.stack.length + 20) c

/-- The tokens are the end tag of a script whose text was read. -/
def endsScript (c : Construction) (tokens : List Token) : Bool :=
  c.mode == .inRawText && tokens == [.close "script"]

/-- Reads a text to its end. The bound is on the number of pieces of markup and characters. -/
def read (source : Source) : Nat → Construction → List Char → Construction
  | 0, c, _ => c
  | bound + 1, c, cs =>
    let cs := if c.skipNewline then withoutFirstNewline cs else cs
    let c := { c with skipNewline := false }
    match c.rawText with
    | some kind =>
      let (inside, behind) := kind.read cs
      read source bound ((Token.ofChars inside).foldl take { c with rawText := none }) behind
    | none =>
      if cs.isEmpty then c.take .eof
      else
        let (tokens, behind) := nextTokens c.inForeign cs
        let behind := if c.endsScript tokens then source.behindScript behind else behind
        read source bound (tokens.foldl take c) behind

end Construction

/-- The tree of a text of markup. -/
def tree (markup : String) : Forest Node :=
  let source := Source.ofMarkup markup
  (Construction.read source (2 * source.chars.length + 2) {} source.chars).nodes

end ElementLocator.Html
