import ElementLocator.Css.Token.Numeric
import ElementLocator.Css.Token.Url

/-!
# From text to CSS tokens

Every text has tokens: what is nothing else is a `delim` of one character. Comments leave no token, and neither a
string nor a block nor a comment has to be closed before the text ends.
-/

namespace ElementLocator.Css

/-- The tokens that are one character and never the start of a longer token. -/
def punctuation? (c : Char) : Option Token :=
  match c with
  | '(' => some .openParen
  | ')' => some .closeParen
  | '[' => some .openSquare
  | ']' => some .closeSquare
  | '{' => some .openCurly
  | '}' => some .closeCurly
  | ',' => some .comma
  | ':' => some .colon
  | ';' => some .semicolon
  | _ => none

/-- The comparison that a character writes together with an equals sign. -/
def operator? (c : Char) : Option AttributeOperator :=
  match c with
  | '~' => some .includes
  | '|' => some .dash
  | '^' => some .starts
  | '$' => some .ends
  | '*' => some .contains
  | _ => none

/-- A name, or a function if a parenthesis follows it; `url(` takes in the address behind it. -/
def identLike (cs : List Char) : Token × List Char :=
  let (name, later) := nameRun cs
  match later with
  | '(' :: rest =>
    let function := Token.function (String.ofList name)
    if name.map Char.toLower = ['u', 'r', 'l'] then (urlToken? rest).getD (function, rest) else (function, rest)
  | _ => (.ident (String.ofList name), later)

/-- A string; the mark has been read. -/
def stringToken (mark : Char) (rest : List Char) : Token × List Char :=
  let (good, text, later) := stringRun mark rest
  (if good then .quotedString (String.ofList text) else .badString (String.ofList text), later)

/-- A hash sign: in front of a name, in front of other name characters, or alone. -/
def hashToken (rest : List Char) : Token × List Char :=
  if startsName rest then
    let (name, later) := nameRun rest
    (.idHash (String.ofList name), later)
  else if rest.head?.any fun c => c.isDigit || c == '-' then
    let (name, later) := nameRun rest
    (.hash (String.ofList name), later)
  else (.delim '#', rest)

/-- A token that starts with none of the characters above: a number, a name, an opening of a longer token, or a
single character. -/
def otherToken (c : Char) (rest : List Char) : Token × List Char :=
  if startsMagnitude (c :: rest) || startsSigned (c :: rest) then numericToken (c :: rest)
  else if c = '-' && ['-', '>'].isPrefixOf rest then (.commentClose, rest.drop 2)
  else if c = '<' && ['!', '-', '-'].isPrefixOf rest then (.commentOpen, rest.drop 3)
  else if c = '@' && startsName rest then
    let (name, later) := nameRun rest
    (.atKeyword (String.ofList name), later)
  else if startsName (c :: rest) then identLike (c :: rest)
  else (.delim c, rest)

/-- A token that is neither white space nor punctuation nor a comparison. -/
def plainToken (c : Char) (rest : List Char) : Token × List Char :=
  if c = '"' || c = '\'' then stringToken c rest
  else if c = '#' then hashToken rest
  else otherToken c rest

/-- What a text begins with, and the text behind it; a comment is no token. -/
def lexeme (c : Char) (rest : List Char) : Option Token × List Char :=
  if isCssSpace c then
    (some (.whiteSpace (String.ofList (c :: rest.takeWhile isCssSpace))), rest.dropWhile isCssSpace)
  else match punctuation? c with
  | some token => (some token, rest)
  | none =>
    if c = '/' && rest.head? == some '*' then (none, dropComment (rest.drop 1))
    else match operator? c, rest with
    | some operator, '=' :: later => (some (.attributeMatch operator), later)
    | _, _ => (some (plainToken c rest).1, (plainToken c rest).2)

/-- What starts a name takes something from the text. -/
theorem identLike_length_lt {cs : List Char} (h : startsName cs = true) :
    (identLike cs).2.length < cs.length := by
  have hname := nameRun_length_lt h
  simp only [identLike]
  split
  · next rest heq =>
    rw [heq] at hname
    simp only [List.length_cons] at hname
    split
    · cases hu : urlToken? rest with
      | none => simp only [Option.getD_none]; omega
      | some p =>
        have := @urlToken?_length rest p.2 p.1 hu
        simp only [Option.getD_some]; omega
    · dsimp only; omega
  · exact hname

/-- Any other token leaves no more of the text. -/
theorem otherToken_length (c : Char) (rest : List Char) :
    (otherToken c rest).2.length ≤ rest.length := by
  unfold otherToken
  split
  · next h =>
    have := @numericToken_length_lt (c :: rest) (by simpa using h)
    simp only [List.length_cons] at this; omega
  split
  · simp
  split
  · simp
  split
  · exact nameRun_length rest
  split
  · next h =>
    have := identLike_length_lt h
    simp only [List.length_cons] at this; omega
  · simp

/-- A hash token leaves no more of the text. -/
theorem hashToken_length (rest : List Char) : (hashToken rest).2.length ≤ rest.length := by
  unfold hashToken
  split
  · exact nameRun_length rest
  split
  · exact nameRun_length rest
  · simp

/-- A plain token leaves no more of the text. -/
theorem plainToken_length (c : Char) (rest : List Char) : (plainToken c rest).2.length ≤ rest.length := by
  unfold plainToken
  split
  · exact stringRun_length c rest
  split
  · exact hashToken_length rest
  · exact otherToken_length c rest

/-- What follows a token or a comment is no longer than the text behind its first character. -/
theorem lexeme_length (c : Char) (rest : List Char) : (lexeme c rest).2.length ≤ rest.length := by
  unfold lexeme
  split
  · exact dropWhile_length _ _
  split
  · simp
  split
  · have := dropComment_length (rest.drop 1)
    simp only [List.length_drop] at this ⊢; omega
  split
  · simp
  · exact plainToken_length _ _

/-- The tokens of a text. -/
def tokens : List Char → List Token
  | [] => []
  | c :: rest => (lexeme c rest).1.toList ++ tokens (lexeme c rest).2
termination_by cs => cs.length
decreasing_by
  have := lexeme_length c rest
  simp only [List.length_cons]; omega

end ElementLocator.Css
