/-!
# Sets of tags

The groups of elements that the rules of tree construction speak of. All of them are elements of HTML itself.
-/

namespace ElementLocator.Html.TagSet

/-- Elements of the head without content. -/
def headVoid : List String := ["base", "basefont", "bgsound", "link", "meta"]

/-- Start tags that belong to the head wherever they stand. -/
def head : List String := headVoid ++ ["noframes", "script", "style", "template", "title"]

/-- Start tags that are dropped in the body. -/
def neverInBody : List String :=
  ["caption", "col", "colgroup", "frame", "head", "tbody", "td", "tfoot", "th", "thead", "tr"]

/-- Blocks, which end a paragraph. -/
def blocks : List String :=
  ["address", "article", "aside", "blockquote", "center", "details", "dialog", "dir", "div", "dl", "fieldset",
    "figcaption", "figure", "footer", "header", "hgroup", "main", "menu", "nav", "ol", "p", "search", "section",
    "summary", "ul"]

/-- End tags that end a block. -/
def blockEnds : List String :=
  ["address", "article", "aside", "blockquote", "button", "center", "details", "dialog", "dir", "div", "dl",
    "fieldset", "figcaption", "figure", "footer", "header", "hgroup", "listing", "main", "menu", "nav", "ol", "pre",
    "search", "section", "summary", "ul"]

/-- Headings. -/
def headings : List String := ["h1", "h2", "h3", "h4", "h5", "h6"]

/-- Formatting elements that may be nested in each other. -/
def formatting : List String :=
  ["b", "big", "code", "em", "font", "i", "s", "small", "strike", "strong", "tt", "u"]

/-- Formatting elements. -/
def formattingEnds : List String := ["a", "nobr"] ++ formatting

/-- Elements that formatting does not reach into. -/
def embedded : List String := ["applet", "marquee", "object"]

/-- Elements without content that stand in running text. -/
def void : List String := ["area", "br", "embed", "img", "keygen", "wbr", "input"]

/-- Elements without content that belong to another element. -/
def parameters : List String := ["param", "source", "track"]

/-- Elements that bound what an end tag can reach. -/
def scope : List String := ["applet", "caption", "html", "table", "td", "th", "marquee", "object", "template"]

/-- Elements that bound what an end tag inside a table can reach. -/
def tableScope : List String := ["html", "table", "template"]

/-- Elements whose end tags may be left out. -/
def impliedEnds : List String := ["dd", "dt", "li", "option", "optgroup", "p", "rb", "rp", "rt", "rtc"]

/-- Elements that end with a template. -/
def templateEnds : List String :=
  impliedEnds ++ ["caption", "colgroup", "tbody", "td", "tfoot", "th", "thead", "tr"]

/-- Elements inside which characters and other elements of a table do not belong. -/
def tableParts : List String := ["table", "tbody", "tfoot", "thead", "tr"]

/-- The parts of a table. -/
def tableSections : List String := ["tbody", "tfoot", "thead"]

/-- Where rows of a table stand. -/
def rowParents : List String := tableSections ++ ["template", "html"]

/-- Where cells of a table stand. -/
def cellParents : List String := ["tr", "template", "html"]

/-- Cells of a table. -/
def cells : List String := ["td", "th"]

/-- Elements that end the search for an element that an end tag may close. -/
def special : List String :=
  ["address", "applet", "area", "article", "aside", "base", "basefont", "bgsound", "blockquote", "body", "br",
    "button", "caption", "center", "col", "colgroup", "dd", "details", "dir", "div", "dl", "dt", "embed",
    "fieldset", "figcaption", "figure", "footer", "form", "frame", "frameset", "h1", "h2", "h3", "h4", "h5", "h6",
    "head", "header", "hgroup", "hr", "html", "iframe", "img", "input", "isindex", "li", "link", "listing", "main",
    "marquee", "menu", "meta", "nav", "noembed", "noframes", "noscript", "object", "ol", "p", "param", "plaintext",
    "pre", "script", "section", "select", "source", "style", "summary", "table", "tbody", "td", "template",
    "textarea", "tfoot", "th", "thead", "title", "tr", "track", "ul", "wbr", "xmp"]

/-- Start tags that leave foreign elements. -/
def leavesForeign : List String :=
  ["b", "big", "blockquote", "body", "br", "center", "code", "dd", "div", "dl", "dt", "em", "embed", "h1", "h2",
    "h3", "h4", "h5", "h6", "head", "hr", "i", "img", "li", "listing", "menu", "meta", "nobr", "ol", "p", "pre",
    "ruby", "s", "small", "span", "strong", "strike", "sub", "sup", "table", "tt", "u", "ul", "var"]

end ElementLocator.Html.TagSet
