import ElementLocator.Number

/-!
# The shortest decimal text of a number

Among the decimals that round to a given number, the shortest one is the coarsest: it is a multiple of the
greatest power of ten. `shortest` tries the two neighbours of the number on the grid of one power of ten after
the other, and takes the nearer one on the first grid that has a hit.

The digits are written in one of three ways: positionally, positionally with a point in any case, or with an
exponent.
-/

namespace ElementLocator.Number

/-- A decimal: `digits * 10 ^ exponent`. -/
structure Decimal where
  digits : Nat
  exponent : Int
  deriving Repr, DecidableEq

/-- The same value with as many mantissa bits as the format has, if the exponent can be lowered that far. -/
def Format.widen (f : Format) (m : Nat) (e : Int) : Nat × Int :=
  let shift := min (f.precision - 1 - Nat.log2 m) (e - f.minExponent).toNat
  (m * Nat.pow 2 shift, e - shift)

/-- Both sides of a comparison of `d * 10 ^ k` with `q * 2 ^ e`, brought to natural numbers. -/
def decimalSide (d : Nat) (k e : Int) : Nat := d * pow10 k * pow2 (-e)

/-- The other side of the comparison. -/
def binarySide (q : Nat) (k e : Int) : Nat := q * pow2 e * pow10 (-k)

/-- The decimal `d * 10 ^ k` rounds to the number with mantissa `m` and exponent `e`. -/
def Format.roundsBack (f : Format) (m : Nat) (e : Int) (d : Nat) (k : Int) : Bool :=
  let below := if m = f.fullMantissa && f.minExponent < e then 1 else 2
  let low := binarySide (4 * m - below) k (e - 2)
  let high := binarySide (4 * m + 2) k (e - 2)
  let here := decimalSide d k (e - 2)
  if m % 2 = 0 then low ≤ here && here ≤ high else low < here && here < high

/-- The nearer of the two neighbours on the grid of `10 ^ k` that round back, if one of them does. -/
def Format.onGrid? (f : Format) (m : Nat) (e k : Int) : Option Decimal :=
  let d := binarySide m k e / decimalSide 1 k e
  let down := 0 < d && f.roundsBack m e d k
  let up := f.roundsBack m e (d + 1) k
  let gapBelow := binarySide m k e - decimalSide d k e
  let gapAbove := decimalSide (d + 1) k e - binarySide m k e
  if down && (!up || gapBelow ≤ gapAbove) then some ⟨d, k⟩
  else if up then some ⟨d + 1, k⟩
  else none

/-- The first hit on the grids of `10 ^ k`, `10 ^ (k - 1)` and so on. -/
def Format.firstGrid (f : Format) (m : Nat) (e : Int) : Nat → Int → Decimal
  | 0, k => ⟨binarySide m k e / decimalSide 1 k e, k⟩
  | bound + 1, k => (f.onGrid? m e k).getD (firstGrid f m e bound (k - 1))

/-- The shortest decimal that rounds to a positive number of the format. -/
def Format.shortest (f : Format) (mantissa : Nat) (exponent : Int) : Decimal :=
  let (m, e) := f.widen mantissa exponent
  let magnitude : Int := (Nat.log2 m : Int) + e + 1
  f.firstGrid m e 24 (magnitude * 30103 / 100000 + 2)

/-- The characters of the digits. -/
def Decimal.characters (d : Decimal) : List Char := Nat.toDigits 10 d.digits

/-- The decimal written positionally; a whole number has no point. -/
def Decimal.positional (d : Decimal) : List Char :=
  let digits := d.characters
  if 0 ≤ d.exponent then digits ++ List.replicate d.exponent.toNat '0'
  else
    let places := (-d.exponent).toNat
    let padded := List.replicate (places + 1 - digits.length) '0' ++ digits
    padded.take (padded.length - places) ++ ['.'] ++ padded.drop (padded.length - places)

/-- The decimal written with one digit before the point and a power of ten. -/
def Decimal.scientific (d : Decimal) : List Char :=
  let digits := d.characters
  let power : Int := d.exponent + digits.length - 1
  let fraction := digits.drop 1
  digits.take 1 ++ (if fraction.isEmpty then [] else '.' :: fraction) ++ 'e' :: (toString power).toList

/-- The sign of a negative number. -/
def signText (negative : Bool) : String := if negative then "-" else ""

/-- The shortest text without an exponent; a whole number has no point. -/
def plainText (f : Format) : Number → String
  | .nan => "NaN"
  | .infinite negative => signText negative ++ "inf"
  | .finite negative m e =>
    signText negative ++ (if m = 0 then "0" else String.ofList (f.shortest m e).positional)

/-- The shortest text that always shows a point or an exponent; the exponent is used from `10 ^ 16` on and below
`10 ^ least`. -/
def pointedText (f : Format) (least : Int) : Number → String
  | .nan => "NaN"
  | .infinite negative => signText negative ++ "inf"
  | .finite negative m e =>
    if m = 0 then signText negative ++ "0.0"
    else
      let d := f.shortest m e
      let power : Int := d.exponent + d.characters.length - 1
      let text := if power < least || 16 ≤ power then d.scientific
        else if 0 ≤ d.exponent then d.positional ++ ['.', '0'] else d.positional
      signText negative ++ String.ofList text

/-- A whole number with all its digits, any other number in the shortest way. -/
def wholeText : Number → String
  | .finite negative m e =>
    if (m * pow2 e) % pow2 (-e) = 0 then signText negative ++ toString (m * pow2 e / pow2 (-e))
    else plainText double (.finite negative m e)
  | other => plainText double other

end ElementLocator.Number
