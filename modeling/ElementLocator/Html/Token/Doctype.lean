import ElementLocator.Text.Ascii

/-!
# Document types

A document type declaration matters in one way: documents with an old or broken one, or with none, are laid out
in the old way, and then a table does not end a paragraph. The declaration ends at the first greater-than sign.
-/

namespace ElementLocator.Html

/-- A document type as far as it matters: its name, its two identifiers, and whether it is broken. -/
structure Doctype where
  name : String
  publicId : Option String := none
  systemId : Option String := none
  broken : Bool := false
  deriving Repr, DecidableEq

/-- An identifier between quotation marks at the front of a text, and what follows. -/
def quotedIdentifier? : List Char → Option (String × List Char)
  | [] => none
  | mark :: rest =>
    if mark = '"' || mark = '\'' then
      match Text.cutAtFirst mark rest with
      | some (inside, behind) => some (String.ofList inside, behind)
      | none => none
    else none

/-- The text without white space at its front. -/
def skipSpace (cs : List Char) : List Char := cs.dropWhile Text.isSpace

/-- The text behind a word in any letter case. -/
def behindWord? (word : String) (cs : List Char) : Option (List Char) :=
  if (cs.take word.length).map Char.toLower == word.toList then some (cs.drop word.length) else none

/-- The declaration from its name on. What follows a system identifier does not count. -/
def Doctype.ofChars (cs : List Char) : Doctype :=
  let cs := skipSpace cs
  let name := Text.lower (String.ofList (cs.takeWhile (!Text.isSpace ·)))
  let rest := skipSpace (cs.dropWhile (!Text.isSpace ·))
  if name.isEmpty then { name, broken := true }
  else if rest.isEmpty then { name }
  else match behindWord? "public" rest with
    | some behind => match quotedIdentifier? (skipSpace behind) with
      | none => { name, broken := true }
      | some (publicId, behind) =>
        let behind := skipSpace behind
        if behind.isEmpty then { name, publicId := some publicId }
        else match quotedIdentifier? behind with
          | none => { name, publicId := some publicId, broken := true }
          | some (systemId, _) => { name, publicId := some publicId, systemId := some systemId }
    | none => match behindWord? "system" rest with
      | none => { name, broken := true }
      | some behind => match quotedIdentifier? (skipSpace behind) with
        | none => { name, broken := true }
        | some (systemId, _) => { name, systemId := some systemId }

/-- Public identifiers of old documents. -/
def oldPublicIds : List String :=
  ["-//w3o//dtd w3 html strict 3.0//en//", "-/w3c/dtd html 4.0 transitional/en", "html"]

/-- The system identifier of old documents. -/
def oldSystemId : String := "http:" ++ "//www.ibm.com/data/dtd/v11/ibmxhtml1-transitional.dtd"

/-- Beginnings of public identifiers of old documents. -/
def oldPublicStarts : List String := [
  "-//advasoft ltd//dtd html 3.0 aswedit + extensions//", "-//as//dtd html 3.0 aswedit + extensions//",
  "-//ietf//dtd html 2.0 level 1//", "-//ietf//dtd html 2.0 level 2//",
  "-//ietf//dtd html 2.0 strict level 1//", "-//ietf//dtd html 2.0 strict level 2//",
  "-//ietf//dtd html 2.0 strict//", "-//ietf//dtd html 2.0//", "-//ietf//dtd html 2.1e//",
  "-//ietf//dtd html 3.0//", "-//ietf//dtd html 3.2 final//", "-//ietf//dtd html 3.2//",
  "-//ietf//dtd html 3//", "-//ietf//dtd html level 0//", "-//ietf//dtd html level 1//",
  "-//ietf//dtd html level 2//", "-//ietf//dtd html level 3//", "-//ietf//dtd html strict level 0//",
  "-//ietf//dtd html strict level 1//", "-//ietf//dtd html strict level 2//",
  "-//ietf//dtd html strict level 3//", "-//ietf//dtd html strict//", "-//ietf//dtd html//",
  "-//metrius//dtd metrius presentational//", "-//microsoft//dtd internet explorer 2.0 html strict//",
  "-//microsoft//dtd internet explorer 2.0 html//", "-//microsoft//dtd internet explorer 2.0 tables//",
  "-//microsoft//dtd internet explorer 3.0 html strict//", "-//microsoft//dtd internet explorer 3.0 html//",
  "-//microsoft//dtd internet explorer 3.0 tables//", "-//netscape comm. corp.//dtd html//",
  "-//netscape comm. corp.//dtd strict html//", "-//o'reilly and associates//dtd html 2.0//",
  "-//o'reilly and associates//dtd html extended 1.0//",
  "-//o'reilly and associates//dtd html extended relaxed 1.0//",
  "-//softquad software//dtd hotmetal pro 6.0::19990601::extensions to html 4.0//",
  "-//softquad//dtd hotmetal pro 4.0::19971010::extensions to html 4.0//", "-//spyglass//dtd html 2.0 extended//",
  "-//sq//dtd html 2.0 hotmetal + extensions//", "-//sun microsystems corp.//dtd hotjava html//",
  "-//sun microsystems corp.//dtd hotjava strict html//", "-//w3c//dtd html 3 1995-03-24//",
  "-//w3c//dtd html 3.2 draft//", "-//w3c//dtd html 3.2 final//", "-//w3c//dtd html 3.2//",
  "-//w3c//dtd html 3.2s draft//", "-//w3c//dtd html 4.0 frameset//", "-//w3c//dtd html 4.0 transitional//",
  "-//w3c//dtd html experimental 19960712//", "-//w3c//dtd html experimental 970421//",
  "-//w3c//dtd w3 html//", "-//w3o//dtd w3 html 3.0//", "-//webtechs//dtd mozilla html 2.0//",
  "-//webtechs//dtd mozilla html//"]

/-- Beginnings of public identifiers that are old where a system identifier is missing. -/
def html4PublicStarts : List String :=
  ["-//w3c//dtd html 4.01 frameset//", "-//w3c//dtd html 4.01 transitional//"]

/-- One of the texts stands at the front of another. -/
def startsWithAny (starts : List String) (text : String) : Bool :=
  starts.any fun start => start.toList.isPrefixOf text.toList

/-- The document is laid out in the old way. Letter case does not count in identifiers. -/
def Doctype.oldLayout (d : Doctype) : Bool :=
  let publicId := d.publicId.map Text.lower
  let systemId := d.systemId.map Text.lower
  d.broken || d.name != "html" || publicId.any oldPublicIds.contains ||
    systemId == some oldSystemId || publicId.any (startsWithAny oldPublicStarts) ||
    (systemId.isNone && publicId.any (startsWithAny html4PublicStarts))

end ElementLocator.Html
