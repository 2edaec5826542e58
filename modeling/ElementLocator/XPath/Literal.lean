import ElementLocator.Text.Ascii

/-!
# XPath string literals

A literal has no escapes, so a text is written between the kind of quotation mark that it does not contain. A
text with both kinds becomes a call of `concat` over its pieces between the apostrophes.
-/

namespace ElementLocator.XPath

/-- The text between two marks. -/
def enclose (mark : Char) (cs : List Char) : List Char := mark :: (cs ++ [mark])

/-- An XPath expression whose value is the given text. -/
def literalFor (value : List Char) : List Char :=
  if !value.contains '\'' then enclose '\'' value
  else if !value.contains '"' then enclose '"' value
  else
    let pieces := (Text.splitAtEach '\'' value).map (enclose '\'')
    "concat(".toList ++ List.intercalate ", \"'\", ".toList pieces ++ [')']

/-- `literalFor` on strings. -/
def quote (value : String) : String := String.ofList (literalFor value.toList)

end ElementLocator.XPath
