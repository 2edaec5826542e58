import ElementLocator.Html.NamedCharacter

/-!
# Character references

An ampersand starts a reference by name or by number. The longest name counts. In the value of an attribute, a name
without a semicolon is no reference if a letter, a digit or an equals sign follows. Numbers of no character stand
for U+FFFD, and the numbers of C1 controls for the characters that an old encoding has there.
-/

namespace ElementLocator.Html

/-- The character that stands for anything unreadable. -/
def replacement : Char := '\uFFFD'

/-- The longer of two readings; the first one if they have the same length. -/
def longer (a b : Option (List Char × Nat)) : Option (List Char × Nat) :=
  match a, b with
  | some (_, m), some (_, n) => if m < n then b else a
  | none, _ => b
  | _, none => a

/-- The characters of a name at the front of a text, and the length of its reading. -/
def NamedCharacter.reading? (entry : NamedCharacter) (cs : List Char) : Option (List Char × Nat) :=
  if entry.name.isPrefixOf cs then
    if cs[entry.name.length]? = some ';' then some (entry.characters, entry.name.length + 1)
    else if entry.bare then some (entry.characters, entry.name.length)
    else none
  else none

/-- A reference by name at the front of a text: its characters and the length of its reading. -/
def namedReference? (inAttribute : Bool) (cs : List Char) : Option (List Char × Nat) :=
  match namedCharacters.foldl (fun best entry => longer best (entry.reading? cs)) none with
  | none => none
  | some (characters, length) =>
    let unfinished := cs[length - 1]? != some ';'
    let continued := cs[length]?.any fun c => c == '=' || c.isAlphanum
    if inAttribute && unfinished && continued then none else some (characters, length)

/-- The characters for the numbers from 80 to 9F in hexadecimal; zero means the control character itself. -/
def controlReplacements : List Nat :=
  [0x20ac, 0, 0x201a, 0x192, 0x201e, 0x2026, 0x2020, 0x2021, 0x2c6, 0x2030, 0x160, 0x2039, 0x152, 0, 0x17d, 0,
    0, 0x2018, 0x2019, 0x201c, 0x201d, 0x2022, 0x2013, 0x2014, 0x2dc, 0x2122, 0x161, 0x203a, 0x153, 0, 0x17e, 0x178]

/-- The character that a number stands for. -/
def referenced (n : Nat) : Char :=
  if n = 0 || !n.isValidChar then replacement
  else if 0x80 ≤ n && n ≤ 0x9f then
    match controlReplacements[n - 0x80]? with
    | some (k + 1) => Char.ofNat (k + 1)
    | _ => Char.ofNat n
  else Char.ofNat n

/-- A reference by number whose digits start after `before` characters. -/
def digitReference? (isDigit : Char → Bool) (number : List Char → Nat) (before : Nat) (cs : List Char) :
    Option (List Char × Nat) :=
  let digits := cs.takeWhile isDigit
  if digits.isEmpty then none
  else
    let length := before + digits.length
    some ([referenced (number digits)], if cs[digits.length]? = some ';' then length + 1 else length)

/-- The reference behind an ampersand: its characters and the length of its reading. -/
def reference? (inAttribute : Bool) (cs : List Char) : Option (List Char × Nat) :=
  match cs with
  | '#' :: 'x' :: rest => digitReference? Text.isHexDigit Text.hexNumber 2 rest
  | '#' :: 'X' :: rest => digitReference? Text.isHexDigit Text.hexNumber 2 rest
  | '#' :: rest => digitReference? Char.isDigit (Nat.ofDigitChars 10 · 0) 1 rest
  | c :: _ => if c.isAlphanum then namedReference? inAttribute cs else none
  | [] => none

/-- The text without a line feed at its front. The line feed may be written as a reference, but only as one that a
semicolon ends. -/
def withoutFirstNewline (cs : List Char) : List Char :=
  match cs with
  | '\n' :: rest => rest
  | '&' :: rest => match reference? false rest with
    | some (characters, length) =>
      if characters = ['\n'] && rest[length - 1]? = some ';' then rest.drop length else cs
    | none => cs
  | _ => cs

/-- The text with its references replaced, of which the first `skipped` characters belong to a reference that was
replaced already. -/
def decodeFrom (inAttribute : Bool) (skipped : Nat) : List Char → List Char
  | [] => []
  | c :: rest =>
    match skipped with
    | k + 1 => decodeFrom inAttribute k rest
    | 0 =>
      if c = '&' then
        match reference? inAttribute rest with
        | some (characters, length) => characters ++ decodeFrom inAttribute length rest
        | none => c :: decodeFrom inAttribute 0 rest
      else c :: decodeFrom inAttribute 0 rest

/-- The text with its references replaced. -/
def decode (inAttribute : Bool) (cs : List Char) : List Char := decodeFrom inAttribute 0 cs

end ElementLocator.Html
