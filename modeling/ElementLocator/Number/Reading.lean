import ElementLocator.Number

/-!
# Reading decimal numbers

The text of a number is an optional sign and either digits, with an optional point and an optional exponent, or
one of the words `inf`, `infinity` and `nan` in any letter case. At least one digit stands before or after the
point. The value is the nearest double.
-/

namespace ElementLocator.Number

/-- The digits at the front of a text, and what follows them. -/
def digitRun (cs : List Char) : List Char × List Char := (cs.takeWhile Char.isDigit, cs.dropWhile Char.isDigit)

/-- A sign at the front of a text, and what follows it. -/
def signOf : List Char → Bool × List Char
  | '-' :: rest => (true, rest)
  | '+' :: rest => (false, rest)
  | cs => (false, cs)

/-- The exponent that ends a number: nothing, or `e` with an optional sign and digits. -/
def exponentOf? : List Char → Option Int
  | [] => some 0
  | c :: rest =>
    if c = 'e' || c = 'E' then
      let (negative, digits) := signOf rest
      if digits.isEmpty || !digits.all Char.isDigit then none
      else
        let size : Int := Nat.ofDigitChars 10 digits 0
        some (if negative then -size else size)
    else none

/-- A number without a sign that is written with digits. -/
def magnitude? (negative : Bool) (cs : List Char) : Option Number :=
  let (whole, rest) := digitRun cs
  let (fraction, rest) := match rest with
    | '.' :: later => digitRun later
    | later => ([], later)
  if whole.isEmpty && fraction.isEmpty then none
  else (exponentOf? rest).map fun e =>
    ofDecimal negative (Nat.ofDigitChars 10 (whole ++ fraction) 0) (e - fraction.length)

/-- The number that a text denotes. -/
def parse? (cs : List Char) : Option Number :=
  let (negative, rest) := signOf cs
  let word := rest.map Char.toLower
  if word = ['i', 'n', 'f'] || word = ['i', 'n', 'f', 'i', 'n', 'i', 't', 'y'] then some (.infinite negative)
  else if word = ['n', 'a', 'n'] then some .nan
  else magnitude? negative rest

/-- A text of digits alone is one run. -/
theorem digitRun_of_all {cs : List Char} (h : cs.all Char.isDigit = true) : digitRun cs = (cs, []) := by
  induction cs with
  | nil => rfl
  | cons c rest ih => simp_all [digitRun]

/-- A text of digits alone denotes the natural number it writes. -/
theorem magnitude?_digits {cs : List Char} (hne : cs ≠ []) (h : cs.all Char.isDigit = true) :
    magnitude? false cs = some (ofDecimal false (Nat.ofDigitChars 10 cs 0) 0) := by
  simp [magnitude?, digitRun_of_all h, hne, exponentOf?]

end ElementLocator.Number
