import ElementLocator.Number.Reading
import ElementLocator.Text.Ascii
import ElementLocator.Text.Letter
import ElementLocator.XPath.Error

/-!
# From text to XPath tokens

`lexeme` reads one token off the front of a text and says which characters spell it; `tokens` does so until the
text is used up, skipping spaces, tabs and line ends. Names and numbers are as long as possible. A number that
starts with a digit takes in every point that follows, so `1.2.3` is one bad number and not two good ones.
-/

namespace ElementLocator.XPath

/-- Space, tab, line feed and carriage return separate tokens. -/
def isSeparator (c : Char) : Bool := c == ' ' || c == '\t' || c == '\n' || c == '\r'

/-- A name starts with a letter or an underscore. -/
def isNameStart (c : Char) : Bool := Text.isLetter c || c == '_'

/-- A name goes on with letters, digits, underscores, hyphens and points. -/
def isNameChar (c : Char) : Bool := Text.isLetterOrDigit c || c == '_' || c == '-' || c == '.'

/-- A number that starts with a digit goes on with digits and points. -/
def isNumberChar (c : Char) : Bool := c.isDigit || c == '.'

/-- One token, the characters that spell it, and the text behind them. -/
structure Lexeme where
  token : Token
  spelling : List Char
  rest : List Char

/-- The tokens that are one character and never the start of a longer token. -/
def punctuation? (c : Char) : Option Token :=
  match c with
  | '[' => some .leftBracket
  | ']' => some .rightBracket
  | '(' => some .leftParen
  | ')' => some .rightParen
  | '@' => some .at
  | ',' => some .comma
  | '*' => some .star
  | '=' => some .equals
  | _ => none

/-- A text between two equal quotation marks, the first of which has been read. -/
def literalLexeme (mark : Char) (rest : List Char) : Except Fault Lexeme :=
  match Text.cutAtFirst mark rest with
  | none => .error .openLiteral
  | some (text, later) => .ok ⟨.literal (String.ofList text), mark :: (text ++ [mark]), later⟩

/-- A point: alone, doubled, or in front of the digits of a fraction. -/
def pointLexeme (rest : List Char) : Lexeme :=
  match rest with
  | '.' :: later => ⟨.dotDot, ['.', '.'], later⟩
  | _ =>
    let digits := rest.takeWhile Char.isDigit
    if digits.isEmpty then ⟨.dot, ['.'], rest⟩
    else
      let value := Number.ofDecimal false (Nat.ofDigitChars 10 digits 0) (-(digits.length : Int))
      ⟨.number value, '.' :: digits, rest.dropWhile Char.isDigit⟩

/-- A number that starts with a digit. -/
def numberLexeme (c : Char) (rest : List Char) : Except Fault Lexeme :=
  let spelling := c :: rest.takeWhile isNumberChar
  match Number.magnitude? false spelling with
  | none => .error (.badNumber (String.ofList spelling))
  | some value => .ok ⟨.number value, spelling, rest.dropWhile isNumberChar⟩

/-- A name. -/
def nameLexeme (c : Char) (rest : List Char) : Lexeme :=
  let spelling := c :: rest.takeWhile isNameChar
  ⟨.name (String.ofList spelling), spelling, rest.dropWhile isNameChar⟩

/-- The token at the front of a text that starts with `c` and is not a separator. -/
def lexeme (c : Char) (rest : List Char) : Except Fault Lexeme :=
  match punctuation? c with
  | some token => .ok ⟨token, [c], rest⟩
  | none =>
    if c = '/' then
      match rest with
      | '/' :: later => .ok ⟨.doubleSlash, ['/', '/'], later⟩
      | _ => .ok ⟨.slash, ['/'], rest⟩
    else if c = '!' then
      match rest with
      | '=' :: later => .ok ⟨.notEquals, ['!', '='], later⟩
      | _ => .error .loneExclamation
    else if c = ':' then
      match rest with
      | ':' :: later => .ok ⟨.colonColon, [':', ':'], later⟩
      | _ => .error .loneColon
    else if c = '\'' || c = '"' then literalLexeme c rest
    else if c = '.' then .ok (pointLexeme rest)
    else if c.isDigit then numberLexeme c rest
    else if isNameStart c then .ok (nameLexeme c rest)
    else .error (.strayCharacter c)

/-- A text is put together again from what is cut at its mark. -/
theorem cutAtFirst_append {mark : Char} {cs before after : List Char}
    (h : Text.cutAtFirst mark cs = some (before, after)) : cs = before ++ mark :: after := by
  induction cs generalizing before with
  | nil => simp [Text.cutAtFirst] at h
  | cons c rest ih =>
    simp only [Text.cutAtFirst] at h
    split at h
    · next hc => simp only [Option.some.injEq, Prod.mk.injEq] at h; simp [← h.1, ← h.2, hc]
    · obtain ⟨⟨b, a⟩, hcut, heq⟩ := Option.map_eq_some_iff.1 h
      simp only [Prod.mk.injEq] at heq
      obtain ⟨rfl, rfl⟩ := heq
      simp [ih hcut]

/-- What starts with a point is put together again from its lexeme. -/
theorem pointLexeme_split (rest : List Char) :
    '.' :: rest = (pointLexeme rest).spelling ++ (pointLexeme rest).rest := by
  unfold pointLexeme
  split
  · rfl
  · dsimp only
    split
    · rfl
    · simp [List.takeWhile_append_dropWhile]

/-- A token's spelling followed by the text behind it is the text that was read. -/
theorem lexeme_split {c : Char} {rest : List Char} {l : Lexeme} (h : lexeme c rest = .ok l) :
    c :: rest = l.spelling ++ l.rest := by
  unfold lexeme at h
  split at h
  · cases h; rfl
  split at h
  · split at h <;> cases h <;> simp_all
  split at h
  · split at h <;> cases h; simp_all
  split at h
  · split at h <;> cases h; simp_all
  split at h
  · unfold literalLexeme at h
    split at h
    · cases h
    · next hcut => cases h; simp [cutAtFirst_append hcut]
  split at h
  · next hc => cases h; rw [hc]; exact pointLexeme_split rest
  split at h
  · unfold numberLexeme at h
    dsimp only at h
    split at h
    · cases h
    · cases h; simp [List.takeWhile_append_dropWhile]
  split at h
  · cases h; simp [nameLexeme, List.takeWhile_append_dropWhile]
  · cases h

/-- The lexeme of a point has a spelling. -/
theorem pointLexeme_spelling_ne_nil (rest : List Char) : (pointLexeme rest).spelling ≠ [] := by
  unfold pointLexeme
  split
  · simp
  · dsimp only; split <;> simp

/-- No token is spelled by nothing. -/
theorem lexeme_spelling_ne_nil {c : Char} {rest : List Char} {l : Lexeme} (h : lexeme c rest = .ok l) :
    l.spelling ≠ [] := by
  unfold lexeme at h
  split at h
  · cases h; simp
  split at h
  · split at h <;> cases h <;> simp
  split at h
  · split at h <;> cases h; simp
  split at h
  · split at h <;> cases h; simp
  split at h
  · unfold literalLexeme at h
    split at h <;> cases h; simp
  split at h
  · cases h; exact pointLexeme_spelling_ne_nil rest
  split at h
  · unfold numberLexeme at h
    dsimp only at h
    split at h <;> cases h; simp
  split at h
  · cases h; simp [nameLexeme]
  · cases h

/-- What stands behind a token is shorter than what was read. -/
theorem lexeme_rest_length {c : Char} {rest : List Char} {l : Lexeme} (h : lexeme c rest = .ok l) :
    l.rest.length < (c :: rest).length := by
  have hne := List.length_pos_iff.2 (lexeme_spelling_ne_nil h)
  rw [lexeme_split h, List.length_append]
  omega

/-- The tokens of a text whose first character is at the given byte of the query. -/
def tokens (offset : Nat) : List Char → Except Error (List Placed)
  | [] => .ok []
  | c :: rest =>
    if isSeparator c then tokens (offset + c.utf8Size) rest
    else match _h : lexeme c rest with
      | .error fault => .error ⟨fault, offset⟩
      | .ok l => (tokens (offset + byteLength l.spelling) l.rest).map (⟨l.token, offset⟩ :: ·)
termination_by cs => cs.length
decreasing_by
  · simp
  · exact lexeme_rest_length _h

end ElementLocator.XPath
