/-!
# The source of a document

Markup is read in blocks of a fixed number of bytes, and handed on in pieces. A piece is a block, but a character that
the border between two blocks would cut stands in a small piece of its own, together with the characters behind it for
which there is room. A byte order mark at the front of a piece is dropped, and all line ends become line feeds.
-/

namespace ElementLocator.Html

/-- How many bytes a block has. -/
def blockSize : Nat := 4096

/-- How many bytes there are in the piece around a character that a border would cut. -/
def borderSize : Nat := 4

/-- Where the next character stands: inside a block of which some bytes were read, or in the piece around a character
that a border would cut. -/
inductive BlockPlace where
  | within (read : Nat)
  | border (read room : Nat)
  deriving Repr, DecidableEq

/-- Takes in a character; tells whether a piece begins with it. -/
def BlockPlace.push (place : BlockPlace) (c : Char) : Bool × BlockPlace :=
  let size := c.utf8Size
  match place with
  | .within read =>
    if read + size ≤ blockSize then (read == 0, .within (read + size))
    else if read = blockSize then (true, .within size)
    else (true, .border (read + size - blockSize) (borderSize - size))
  | .border read room =>
    if size ≤ room then (false, .border (read + size) (room - size)) else (true, .within (read + size))

/-- The rest of the current piece, and the pieces behind it. -/
def cutFrom : BlockPlace → List Char → List Char × List (List Char)
  | _, [] => ([], [])
  | place, c :: rest =>
    let (begins, next) := place.push c
    let (current, later) := cutFrom next rest
    if begins then ([], (c :: current) :: later) else (c :: current, later)

/-- The pieces of a text. -/
def pieces (cs : List Char) : List (List Char) := (cutFrom (.within 0) cs).2

/-- The text without a byte order mark at its front. -/
def withoutMark : List Char → List Char
  | '\uFEFF' :: rest => rest
  | cs => cs

/-- The text with line feeds at the end of all lines. -/
def lineFeeds : List Char → List Char
  | [] => []
  | '\r' :: '\n' :: rest => '\n' :: lineFeeds rest
  | '\r' :: rest => '\n' :: lineFeeds rest
  | c :: rest => c :: lineFeeds rest

/-- Markup as it is read: its characters, and for the end of each piece the number of characters that follow it. -/
structure Source where
  chars : List Char
  pieceEnds : List Nat
  deriving Repr, DecidableEq

namespace Source

/-- For the end of each piece, the number of characters that follow it. -/
def endsOf : List (List Char) → List Nat
  | [] => []
  | _ :: later => (lineFeeds later.flatten).length :: endsOf later

/-- The source that a text of markup makes. -/
def ofMarkup (markup : String) : Source :=
  let read := (pieces markup.toList).map withoutMark
  { chars := lineFeeds read.flatten, pieceEnds := endsOf read }

/-- What follows the end tag of a script. Reading begins anew there, so a byte order mark is dropped, unless the piece
ends with the tag. -/
def behindScript (source : Source) (cs : List Char) : List Char :=
  if source.pieceEnds.contains cs.length then cs else withoutMark cs

end Source

end ElementLocator.Html
