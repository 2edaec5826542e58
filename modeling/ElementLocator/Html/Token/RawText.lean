import ElementLocator.Html.CharacterReference
import ElementLocator.Html.Token

/-!
# Raw text

The inside of some elements is text in which no tag counts but the one that ends the element. In some of them
character references are replaced. A script may hold markup comments, and inside these further scripts, whose end
does not end the outer one.
-/

namespace ElementLocator.Html

/-- How the inside of an element is read. -/
inductive RawText where
  | replaceable (name : String)
  | raw (name : String)
  | script
  | plain
  deriving Repr, DecidableEq

/-- A name in any letter case stands at the front of a text, with a character behind it that ends a name. -/
def startsWithName (name : List Char) (cs : List Char) : Bool :=
  ((cs.take name.length).map Char.toLower == name) &&
    (cs[name.length]?.any fun c => Text.isSpace c || c == '/' || c == '>')

/-- The end tag with the given name stands behind a less-than sign. -/
def closes (name : List Char) : List Char → Bool
  | '/' :: rest => startsWithName name rest
  | _ => false

/-- The text up to the end tag with the given name, and what follows. -/
def upToEndTag (name : List Char) : List Char → List Char × List Char
  | [] => ([], [])
  | c :: rest =>
    if c = '<' && closes name rest then ([], c :: rest)
    else
      let (inside, behind) := upToEndTag name rest
      (c :: inside, behind)

/-- Where in a script the next character stands: outside comments, or inside one with so many hyphens in front
(two stand for more), or inside a script within a comment. -/
inductive ScriptPlace where
  | outside
  | comment (hyphens : Nat)
  | inner (hyphens : Nat)
  deriving Repr, DecidableEq

/-- The name of scripts. -/
def scriptName : List Char := ['s', 'c', 'r', 'i', 'p', 't']

/-- The place behind a character inside a comment. -/
def ScriptPlace.behind (here : Nat → ScriptPlace) (hyphens : Nat) (c : Char) : ScriptPlace :=
  if c = '-' then here (min 2 (hyphens + 1))
  else if c = '>' && hyphens = 2 then .outside
  else here 0

/-- The text of a script up to its end tag, and what follows. -/
def upToScriptEnd : ScriptPlace → List Char → List Char × List Char
  | _, [] => ([], [])
  | .outside, '<' :: '!' :: '-' :: '-' :: rest =>
    let (inside, behind) := upToScriptEnd (.comment 2) rest
    ('<' :: '!' :: '-' :: '-' :: inside, behind)
  | place, c :: rest =>
    if c = '<' && place matches .outside | .comment _ && closes scriptName rest then ([], c :: rest)
    else
      let next := match place with
        | .outside => .outside
        | .comment hyphens =>
          if c = '<' && startsWithName scriptName rest then .inner 0
          else ScriptPlace.behind .comment hyphens c
        | .inner hyphens =>
          if c = '<' && closes scriptName rest then .comment 0
          else ScriptPlace.behind .inner hyphens c
      let (inside, behind) := upToScriptEnd next rest
      (c :: inside, behind)

/-- The text with U+FFFD for U+0000. -/
def withoutNull (cs : List Char) : List Char := cs.map fun c => if c = '\x00' then replacement else c

/-- The text inside an element, and what follows. -/
def RawText.read (kind : RawText) (cs : List Char) : List Char × List Char :=
  match kind with
  | .replaceable name =>
    let (inside, behind) := upToEndTag name.toList cs
    (decode false (withoutNull inside), behind)
  | .raw name =>
    let (inside, behind) := upToEndTag name.toList cs
    (withoutNull inside, behind)
  | .script =>
    let (inside, behind) := upToScriptEnd .outside cs
    (withoutNull inside, behind)
  | .plain => (withoutNull cs, [])

end ElementLocator.Html
