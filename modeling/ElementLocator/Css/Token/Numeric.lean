import ElementLocator.Css.Token
import ElementLocator.Css.Token.Characters
import ElementLocator.Number.Reading

/-!
# CSS numbers

A number has an optional sign, digits with an optional point between or in front of them, and an optional
exponent. Its value is built up digit by digit in double precision, the digits behind the point weighted by
repeated products of one tenth, and then rounded to single precision.
-/

namespace ElementLocator.Css

/-- A number starts here: with digits, or with a point in front of a digit. -/
def startsMagnitude : List Char → Bool
  | '.' :: c :: _ => c.isDigit
  | c :: _ => c.isDigit
  | [] => false

/-- A sign in front of a number. -/
def startsSigned : List Char → Bool
  | '+' :: rest => startsMagnitude rest
  | '-' :: rest => startsMagnitude rest
  | _ => false

/-- The digits behind a point, if one follows and a digit follows it, and the text behind them. -/
def fractionRun : List Char → List Char × List Char
  | '.' :: c :: rest => if c.isDigit then Number.digitRun (c :: rest) else ([], '.' :: c :: rest)
  | cs => ([], cs)

/-- The exponent, if there is one: whether it is negative, its digits, and the text behind them. -/
def exponentRun : List Char → Option (Bool × List Char) × List Char
  | e :: rest =>
    if e = 'e' || e = 'E' then
      let (negative, digits) := Number.signOf rest
      let (run, later) := Number.digitRun digits
      if run.isEmpty then (none, e :: rest) else (some (negative, run), later)
    else (none, e :: rest)
  | [] => (none, [])

/-- The parts of a number as it was written. -/
structure WrittenNumber where
  signed : Bool
  negative : Bool
  whole : List Char
  fraction : List Char
  exponent : Option (Bool × List Char)

/-- The parts of the number at the front of a text, and the text behind it. -/
def writtenNumber (cs : List Char) : WrittenNumber × List Char :=
  let signed := startsSigned cs
  let (negative, magnitude) := if signed then Number.signOf cs else (false, cs)
  let (whole, afterWhole) := Number.digitRun magnitude
  let (fraction, afterFraction) := fractionRun afterWhole
  let (exponent, later) := exponentRun afterFraction
  (⟨signed, negative, whole, fraction, exponent⟩, later)

/-- The value of a digit. -/
def digitNumber (c : Char) : Number := Number.ofNat (c.toNat - '0'.toNat)

/-- The value of the digits in front of the point. -/
def wholeValue (digits : List Char) : Number :=
  digits.foldl (fun sum c => (sum.mul Number.double (Number.ofNat 10)).addMagnitudes Number.double (digitNumber c))
    (Number.ofNat 0)

/-- One tenth in double precision. -/
def tenth : Number := Number.ofDecimal false 1 (-1)

/-- The value of the digits behind the point, together with the weight of the next digit. -/
def fractionValue (digits : List Char) : Number × Number :=
  digits.foldl (fun (sum, weight) c =>
    (sum.addMagnitudes Number.double ((digitNumber c).mul Number.double weight), weight.mul Number.double tenth))
    (Number.ofNat 0, tenth)

/-- The power of ten that an exponent stands for. -/
def powerOfTen (negative : Bool) (digits : List Char) : Number :=
  let size : Int := Nat.ofDigitChars 10 digits 0
  Number.ofDecimal false 1 (if negative then -size else size)

/-- The value in double precision. -/
def WrittenNumber.value (w : WrittenNumber) : Number :=
  let magnitude := (wholeValue w.whole).addMagnitudes Number.double (fractionValue w.fraction).1
  let value := magnitude.mul Number.double (.finite w.negative 1 0)
  match w.exponent with
  | none => value
  | some (negative, digits) => value.mul Number.double (powerOfTen negative digits)

/-- The value as an integer, brought into the range of 32 bits, if there is neither a point nor an exponent. -/
def WrittenNumber.integer (w : WrittenNumber) : Option Int :=
  if w.fraction.isEmpty && w.exponent.isNone then
    let size : Int := Nat.ofDigitChars 10 w.whole 0
    some (max (-0x80000000) (min 0x7FFFFFFF (if w.negative then -size else size)))
  else none

/-- The number token at the front of a text, and the text behind it. -/
def numericToken (cs : List Char) : Token × List Char :=
  let (w, later) := writtenNumber cs
  let plain : Numeric := ⟨w.signed, w.value.toFormat Number.single, w.integer⟩
  match later with
  | '%' :: rest =>
    (.percentage ⟨w.signed, (w.value.divNat Number.double 100).toFormat Number.single, w.integer⟩, rest)
  | _ =>
    if startsName later then
      let (unit, rest) := nameRun later
      (.dimension plain (String.ofList unit), rest)
    else (.number plain, later)

/-- A run of digits leaves no more of the text. -/
theorem digitRun_length (cs : List Char) : (Number.digitRun cs).2.length ≤ cs.length := by
  simp [Number.digitRun, dropWhile_length]

/-- A run that begins with a digit takes something from the text. -/
theorem digitRun_length_lt {c : Char} {cs : List Char} (h : c.isDigit = true) :
    (Number.digitRun (c :: cs)).2.length < (c :: cs).length := by
  simp only [Number.digitRun, List.dropWhile_cons_of_pos h, List.length_cons]
  exact Nat.lt_succ_of_le (dropWhile_length _ _)

/-- A fraction leaves no more of the text. -/
theorem fractionRun_length (cs : List Char) : (fractionRun cs).2.length ≤ cs.length := by
  unfold fractionRun
  split
  · split
    · exact Nat.le_trans (digitRun_length _) (by simp)
    · simp
  · simp

/-- A sign leaves no more of the text. -/
theorem signOf_length (cs : List Char) : (Number.signOf cs).2.length ≤ cs.length := by
  unfold Number.signOf
  split <;> simp

/-- An exponent leaves no more of the text. -/
theorem exponentRun_length (cs : List Char) : (exponentRun cs).2.length ≤ cs.length := by
  unfold exponentRun
  split
  · next e rest =>
    split
    · dsimp only
      split
      · simp
      · have h1 := digitRun_length (Number.signOf rest).2
        have h2 := signOf_length rest
        simp only [List.length_cons]; omega
    · simp
  · simp

/-- A number has at least one digit, in front of the point or behind it. -/
theorem magnitude_length_lt {cs : List Char} (h : startsMagnitude cs = true) :
    (fractionRun (Number.digitRun cs).2).2.length < cs.length := by
  have hf := fractionRun_length (Number.digitRun cs).2
  match cs, h with
  | c :: rest, h =>
    by_cases hc : c.isDigit = true
    · have := @digitRun_length_lt c rest hc
      omega
    · have hdrop : (Number.digitRun (c :: rest)).2 = c :: rest := by
        simp [Number.digitRun, hc]
      unfold startsMagnitude at h
      split at h
      · next d later heq =>
        cases heq
        have hd := @digitRun_length_lt d later h
        rw [hdrop]
        simp only [fractionRun, h, if_true]
        simp only [List.length_cons] at hd ⊢
        omega
      · next heq => cases heq; exact absurd h hc
      · next heq => cases heq

/-- Behind the sign of a signed number its magnitude starts. -/
theorem signOf_length_lt_of_startsSigned {cs : List Char} (h : startsSigned cs = true) :
    startsMagnitude (Number.signOf cs).2 = true := by
  unfold startsSigned at h
  split at h
  · simpa [Number.signOf] using h
  · simpa [Number.signOf] using h
  · cases h

/-- Where a number starts, its token takes up at least one character. -/
theorem numericToken_length_lt {cs : List Char} (h : startsMagnitude cs = true ∨ startsSigned cs = true) :
    (numericToken cs).2.length < cs.length := by
  have hw : (writtenNumber cs).2.length < cs.length := by
    simp only [writtenNumber]
    split
    · next hs =>
      have h1 := magnitude_length_lt (signOf_length_lt_of_startsSigned hs)
      have h2 := exponentRun_length (fractionRun (Number.digitRun (Number.signOf cs).2).2).2
      have h3 := signOf_length cs
      omega
    · next hs =>
      have h1 := magnitude_length_lt (h.resolve_right hs)
      have h2 := exponentRun_length (fractionRun (Number.digitRun cs).2).2
      dsimp only
      omega
  simp only [numericToken]
  split
  · next heq => rw [heq] at hw; simp only [List.length_cons] at hw; dsimp only; omega
  · split
    · have := nameRun_length (writtenNumber cs).2
      dsimp only; omega
    · exact hw

end ElementLocator.Css
