import ElementLocator.Html.Token.Doctype
import ElementLocator.Html.Token.RawText
import ElementLocator.Html.Token.Tag

/-!
# Cutting markup into tokens

The tokens at the front of a text outside raw text. A less-than sign that begins no markup is a character like any
other. Declarations that are not known are comments.
-/

namespace ElementLocator.Html

/-- Markup begins behind a less-than sign. -/
def startsMarkup : List Char → Bool
  | '!' :: _ => true
  | '?' :: _ => true
  | '/' :: _ :: _ => true
  | c :: _ => c.isAlpha
  | [] => false

/-- The characters up to the next markup, and what follows. -/
def upToMarkup : List Char → List Char × List Char
  | [] => ([], [])
  | c :: rest =>
    if c = '<' && startsMarkup rest then ([], c :: rest)
    else
      let (before, behind) := upToMarkup rest
      (c :: before, behind)

/-- The text of a comment behind the hyphens that open it, and what follows. Hyphens that the text ends in are
lost. -/
def commentRest : List Char → List Char × List Char
  | [] => ([], [])
  | ['-'] => ([], [])
  | ['-', '-'] => ([], [])
  | ['-', '-', '!'] => ([], [])
  | '-' :: '-' :: '>' :: rest => ([], rest)
  | '-' :: '-' :: '!' :: '>' :: rest => ([], rest)
  | c :: rest =>
    let (inside, behind) := commentRest rest
    (c :: inside, behind)

/-- The text of a comment, and what follows; it may be closed at once by fewer hyphens. -/
def commentText : List Char → List Char × List Char
  | '>' :: rest => ([], rest)
  | '-' :: '>' :: rest => ([], rest)
  | cs => commentRest cs

/-- What stands before and after the first greater-than sign. -/
def upToClosing (cs : List Char) : List Char × List Char :=
  (Text.cutAtFirst '>' cs).getD (cs, [])

/-- The text of a section that is taken as it is, and what follows. -/
def sectionText : List Char → List Char × List Char
  | [] => ([], [])
  | ']' :: ']' :: '>' :: rest => ([], rest)
  | c :: rest =>
    let (inside, behind) := sectionText rest
    (c :: inside, behind)

/-- A comment token. -/
def commentToken (cs : List Char) : Token := .comment (String.ofList (withoutNull cs))

/-- A declaration that is not known is a comment up to the next greater-than sign. -/
def unknownDeclaration (cs : List Char) : List Token × List Char :=
  let (inside, behind) := upToClosing cs
  ([commentToken inside], behind)

/-- The declaration behind an exclamation mark. Sections are known inside foreign elements only. -/
def declaration (foreign : Bool) (cs : List Char) : List Token × List Char :=
  match behindWord? "--" cs with
  | some rest =>
    let (inside, behind) := commentText rest
    ([commentToken inside], behind)
  | none => match behindWord? "doctype" cs with
    | some rest =>
      let (inside, behind) := upToClosing rest
      let doctype := Doctype.ofChars inside
      ([.doctype (doctype.oldLayout || !rest.contains '>')], behind)
    | none =>
      if foreign && ['[', 'C', 'D', 'A', 'T', 'A', '['].isPrefixOf cs then
        let (inside, behind) := sectionText (cs.drop 7)
        (Token.ofChars inside, behind)
      else unknownDeclaration cs

/-- The markup behind a less-than sign, as far as it makes a token. -/
def markup (foreign : Bool) : List Char → List Token × List Char
  | '!' :: rest => declaration foreign rest
  | '/' :: '>' :: rest => ([], rest)
  | '/' :: c :: rest =>
    if c.isAlpha then
      match readTag (c :: rest) with
      | some (tag, behind) => ([.close tag.name], behind)
      | none => ([], [])
    else unknownDeclaration (c :: rest)
  | '?' :: rest => unknownDeclaration ('?' :: rest)
  | cs => match readTag cs with
    | some (tag, behind) => ([.start tag], behind)
    | none => ([], [])

/-- The tokens at the front of a text, and what follows: the characters up to the next markup, or one piece of
markup. -/
def nextTokens (foreign : Bool) (cs : List Char) : List Token × List Char :=
  match upToMarkup cs with
  | ([], _ :: rest) => markup foreign rest
  | (before, behind) => (Token.ofChars (decode false before), behind)

end ElementLocator.Html
