import ElementLocator.Html.CharacterReference
import ElementLocator.Html.Token

/-!
# Reading a tag

A tag is read one character at a time up to the sign that closes it. Almost anything can stand in the name of an
attribute; of two attributes with one name, the first counts. A tag that the text ends in is lost.
-/

namespace ElementLocator.Html

/-- Where in a tag the next character stands. -/
inductive TagPlace where
  | name
  | beforeAttribute
  | attributeName
  | afterAttributeName
  | beforeValue
  | quoted (mark : Char)
  | unquoted
  | afterQuoted
  | afterSlash
  deriving Repr, DecidableEq

/-- A tag as far as it was read. All texts and lists stand in reverse, and the first attribute is the one that is
being read. -/
structure TagScan where
  place : TagPlace := .name
  name : List Char := []
  attributes : List (List Char × List Char) := []
  selfClosing : Bool := false
  deriving Repr, DecidableEq

namespace TagScan

/-- A character as it counts in a tag. -/
def visible (c : Char) : Char := if c = '\x00' then replacement else c

/-- The next character stands elsewhere. -/
def at_ (scan : TagScan) (place : TagPlace) : TagScan := { scan with place }

/-- A character of the tag's name. -/
def pushName (scan : TagScan) (c : Char) : TagScan := { scan with name := (visible c).toLower :: scan.name }

/-- A character that begins an attribute. -/
def openAttribute (scan : TagScan) (c : Char) : TagScan :=
  { scan with place := .attributeName, attributes := ([(visible c).toLower], []) :: scan.attributes }

/-- A character of the attribute's name. -/
def pushAttributeName (scan : TagScan) (c : Char) : TagScan :=
  match scan.attributes with
  | (name, value) :: rest => { scan with attributes := ((visible c).toLower :: name, value) :: rest }
  | [] => scan

/-- A character of the attribute's value. -/
def pushValue (scan : TagScan) (c : Char) : TagScan :=
  match scan.attributes with
  | (name, value) :: rest => { scan with attributes := (name, visible c :: value) :: rest }
  | [] => scan

/-- Takes in a character where an attribute may begin. -/
def beforeAttribute (scan : TagScan) (c : Char) : TagScan :=
  if Text.isSpace c then scan.at_ .beforeAttribute
  else if c = '/' then scan.at_ .afterSlash
  else scan.openAttribute c

/-- Takes in a character of a value without quotation marks. -/
def unquoted (scan : TagScan) (c : Char) : TagScan :=
  if Text.isSpace c then scan.at_ .beforeAttribute else (scan.pushValue c).at_ .unquoted

/-- Takes in a character that does not close the tag. -/
def push (scan : TagScan) (c : Char) : TagScan :=
  match scan.place with
  | .name =>
    if Text.isSpace c then scan.at_ .beforeAttribute
    else if c = '/' then scan.at_ .afterSlash
    else scan.pushName c
  | .beforeAttribute => scan.beforeAttribute c
  | .attributeName =>
    if Text.isSpace c then scan.at_ .afterAttributeName
    else if c = '/' then scan.at_ .afterSlash
    else if c = '=' then scan.at_ .beforeValue
    else scan.pushAttributeName c
  | .afterAttributeName =>
    if Text.isSpace c then scan
    else if c = '/' then scan.at_ .afterSlash
    else if c = '=' then scan.at_ .beforeValue
    else scan.openAttribute c
  | .beforeValue =>
    if Text.isSpace c then scan
    else if c = '"' || c = '\'' then scan.at_ (.quoted c)
    else scan.unquoted c
  | .quoted mark => if c = mark then scan.at_ .afterQuoted else scan.pushValue c
  | .unquoted => scan.unquoted c
  | .afterQuoted => scan.beforeAttribute c
  | .afterSlash => scan.beforeAttribute c

/-- The sign that closes a tag counts as part of a value between quotation marks. -/
def isClosedBy (scan : TagScan) (c : Char) : Bool :=
  match scan.place with
  | .quoted _ => false
  | _ => c == '>'

/-- Reads on to the end of the tag. -/
def read (scan : TagScan) : List Char → Option (TagScan × List Char)
  | [] => none
  | c :: rest =>
    if scan.isClosedBy c then some ({ scan with selfClosing := scan.place == .afterSlash }, rest)
    else (scan.push c).read rest

/-- The attributes with the first one of each name. -/
def firstOfEach (attributes : List (String × String)) : List (String × String) :=
  attributes.foldl (fun kept (name, value) => if (kept.lookup name).isSome then kept else kept ++ [(name, value)]) []

/-- The tag that was read. -/
def toTag (scan : TagScan) : Tag where
  name := String.ofList scan.name.reverse
  attributes := firstOfEach (scan.attributes.reverse.map fun (name, value) =>
    (String.ofList name.reverse, String.ofList (decode true value.reverse)))
  selfClosing := scan.selfClosing

end TagScan

/-- Reads a tag from its name on. -/
def readTag (cs : List Char) : Option (Tag × List Char) :=
  (({} : TagScan).read cs).map fun (scan, rest) => (scan.toTag, rest)

end ElementLocator.Html
