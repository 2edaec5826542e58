import ElementLocator.Json.Reader
import ElementLocator.Text.Hex

/-!
# Reading JSON strings

The readers here start behind the opening quotation mark. A string whose text is wanted must have its surrogates
in pairs; a string that is passed over need not.
-/

namespace ElementLocator.Json.Reader

/-- The number in the four digits of an escape. -/
def escapeNumber : Reader Nat := fun c =>
  if (String.ofList c.rest).utf8ByteSize < 4 then
    .error ⟨.endInString, c.rest.foldl Position.pastChar c.position⟩
  else
    let digits := c.rest.take 4
    if digits.all Text.isHexDigit then
      .ok (Text.hexNumber digits, ⟨c.rest.drop 4, c.position.ahead 4 c.rest⟩)
    else .error ⟨.invalidEscape, c.position.ahead 4 c.rest⟩

/-- The number of a second surrogate. -/
def isSecondSurrogate (n : Nat) : Bool := 0xdc00 ≤ n && n ≤ 0xdfff

/-- The number of a first surrogate. -/
def isFirstSurrogate (n : Nat) : Bool := 0xd800 ≤ n && n ≤ 0xdbff

/-- Passes over a character that must follow the first surrogate of a pair. -/
def pairCharacter (expected : Char) : Reader Unit := do
  match ← peek with
  | none => fail .endInString
  | some c => if c = expected then skip else refuse .unfinishedPair

/-- The character that an escape by number stands for; its `u` was read. -/
def numberedCharacter : Reader Char := do
  let n ← escapeNumber
  if isSecondSurrogate n then fail .loneSurrogate
  else if isFirstSurrogate n then
    pairCharacter '\\'
    pairCharacter 'u'
    let k ← escapeNumber
    if isSecondSurrogate k then pure (Char.ofNat ((n - 0xd800) * 0x400 + (k - 0xdc00) + 0x10000))
    else fail .loneSurrogate
  else pure (Char.ofNat n)

/-- The character that stands behind the reverse solidus of an escape, if it is not an escape by number. -/
def shortEscape? : Char → Option Char
  | '"' => some '"'
  | '\\' => some '\\'
  | '/' => some '/'
  | 'b' => some '\x08'
  | 'f' => some '\x0c'
  | 'n' => some '\n'
  | 'r' => some '\r'
  | 't' => some '\t'
  | _ => none

/-- The character that an escape stands for; its reverse solidus was read. -/
def escaped : Reader Char := do
  match ← peek with
  | none => fail .endInString
  | some 'u' =>
    skip
    numberedCharacter
  | some c => match shortEscape? c with
    | some value =>
      skip
      pure value
    | none => refuse .invalidEscape

/-- The text up to the closing quotation mark. The bound is on the number of characters. -/
def textWithin : Nat → Reader (List Char)
  | 0 => fail .endInString
  | bound + 1 => do
    match ← peek with
    | none => fail .endInString
    | some '"' =>
      skip
      pure []
    | some '\\' =>
      skip
      let c ← escaped
      pure (c :: (← textWithin bound))
    | some c =>
      if c.toNat < 0x20 then refuse .controlCharacter
      else
        skip
        pure (c :: (← textWithin bound))

/-- The text up to the closing quotation mark. -/
def textToEnd : Reader String := do
  let c ← get
  pure (String.ofList (← textWithin (c.rest.length + 1)))

/-- Passes over an escape whose reverse solidus was read. -/
def skipEscape : Reader Unit := do
  match ← peek with
  | none => fail .endInString
  | some 'u' =>
    skip
    let _ ← escapeNumber
  | some c => if (shortEscape? c).isSome then skip else refuse .invalidEscape

/-- Passes over a text up to the closing quotation mark. -/
def skipTextWithin : Nat → Reader Unit
  | 0 => fail .endInString
  | bound + 1 => do
    match ← peek with
    | none => fail .endInString
    | some '"' => skip
    | some '\\' =>
      skip
      skipEscape
      skipTextWithin bound
    | some c =>
      if c.toNat < 0x20 then fail .controlCharacter
      else
        skip
        skipTextWithin bound

/-- Passes over a text up to the closing quotation mark. -/
def skipText : Reader Unit := do
  let c ← get
  skipTextWithin (c.rest.length + 1)

end ElementLocator.Json.Reader
