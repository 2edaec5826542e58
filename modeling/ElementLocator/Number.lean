/-!
# Binary floating-point numbers

A number is a sign, a natural mantissa and a power of two, or an infinity, or no number at all. A format fixes
how many bits a mantissa has and how far the exponent reaches; `Format.round` brings an exact quotient to the
nearest number of a format, a tie going to the even mantissa. Everything is exact arithmetic on natural numbers,
so that equality and rounding can be reasoned about.

A whole number that fits the mantissa keeps the exponent zero, so `ofNat n` is `n` itself for all counts that
occur.
-/

namespace ElementLocator

/-- A floating-point number: `mantissa * 2 ^ exponent` with a sign, an infinity, or not a number. -/
inductive Number where
  | nan
  | infinite (negative : Bool)
  | finite (negative : Bool) (mantissa : Nat) (exponent : Int)
  deriving Repr, DecidableEq

namespace Number

/-- A binary format: the bits of a mantissa and the least and greatest exponent of a whole mantissa. -/
structure Format where
  precision : Nat
  minExponent : Int
  maxExponent : Int

/-- One more than the greatest mantissa. -/
def Format.mantissaBound (f : Format) : Nat := Nat.pow 2 f.precision

/-- The least mantissa that has all the bits. -/
def Format.fullMantissa (f : Format) : Nat := Nat.pow 2 (f.precision - 1)

/-- The format with 64 bits. -/
def double : Format := ⟨53, -1074, 971⟩

/-- The format with 32 bits. -/
def single : Format := ⟨24, -149, 104⟩

/-- Two to the power `e`, or one if `e` is negative. -/
def pow2 (e : Int) : Nat := Nat.pow 2 e.toNat

/-- Ten to the power `e`, or one if `e` is negative. -/
def pow10 (e : Int) : Nat := Nat.pow 10 e.toNat

/-- The quotient `n / d` rounded to the nearest natural number, a tie going to the even one. -/
def nearest (n d : Nat) : Nat :=
  let q := n / d
  let r := n % d
  if d < 2 * r || (d == 2 * r && q % 2 == 1) then q + 1 else q

/-- The exponent for the quotient `n / d`, so that its mantissa has all the bits of the format unless the number
is too small for that. -/
def Format.exponentFor (f : Format) (n d : Nat) : Int :=
  let guess : Int := (Nat.log2 n : Int) - Nat.log2 d - f.precision + 1
  let fits := d * pow2 guess * f.fullMantissa ≤ n * pow2 (-guess)
  max f.minExponent (if fits then guess else guess - 1)

/-- The number of the format nearest to `n / d`, a tie going to the even mantissa. -/
def Format.round (f : Format) (negative : Bool) (n d : Nat) : Number :=
  if n % d = 0 && n / d < f.mantissaBound then .finite negative (n / d) 0
  else
    let e := f.exponentFor n d
    let m := nearest (n * pow2 (-e)) (d * pow2 e)
    let (m, e) := if m = f.mantissaBound then (f.fullMantissa, e + 1) else (m, e)
    if f.maxExponent < e then .infinite negative else .finite negative m e

/-- The double nearest to a natural number. -/
def ofNat (n : Nat) : Number := double.round false n 1

/-- A count that fits the mantissa is itself as a number. -/
theorem ofNat_eq_finite {n : Nat} (h : n < double.mantissaBound) : ofNat n = .finite false n 0 := by
  have fits : (n % 1 = 0 && n / 1 < double.mantissaBound) = true := by
    rw [Nat.mod_one, Nat.div_one, Bool.and_eq_true]
    exact ⟨decide_eq_true rfl, decide_eq_true h⟩
  rw [ofNat, Format.round, if_pos fits, Nat.div_one]

/-- The same mantissa and exponent in another format, rounded again. -/
def toFormat (f : Format) : Number → Number
  | .finite negative m e => f.round negative (m * pow2 e) (pow2 (-e))
  | other => other

/-- The number is zero, of either sign. -/
def isZero : Number → Bool
  | .finite _ m _ => m == 0
  | _ => false

/-- The number is not a number. -/
def isNaN : Number → Bool
  | .nan => true
  | _ => false

/-- Equality of values: nothing equals `nan`, and the two zeros are equal. -/
def equals : Number → Number → Bool
  | .finite s m e, .finite t n k =>
    (m == 0 && n == 0) || (s == t && m * pow2 (e - min e k) == n * pow2 (k - min e k))
  | .infinite s, .infinite t => s == t
  | _, _ => false

/-- Counts that fit the mantissa are equal as numbers only if they are equal. -/
theorem equals_ofNat {m n : Nat} (hm : m < double.mantissaBound) (hn : n < double.mantissaBound) :
    (ofNat m).equals (ofNat n) = decide (m = n) := by
  rw [ofNat_eq_finite hm, ofNat_eq_finite hn]
  by_cases h : m = n
  · subst h; simp [equals]
  · have : ¬(m = 0 ∧ n = 0) := fun ⟨a, b⟩ => h (a.trans b.symm)
    simp [equals, pow2, h]
    omega

/-- The product, rounded to the format. -/
def mul (f : Format) : Number → Number → Number
  | .finite s m e, .finite t n k =>
    let e := e + k
    f.round (s != t) (m * n * pow2 e) (pow2 (-e))
  | .finite s m _, .infinite t => if m = 0 then .nan else .infinite (s != t)
  | .infinite s, .finite t n _ => if n = 0 then .nan else .infinite (s != t)
  | .infinite s, .infinite t => .infinite (s != t)
  | _, _ => .nan

/-- The sum of two numbers that are not negative, rounded to the format. -/
def addMagnitudes (f : Format) : Number → Number → Number
  | .finite _ m e, .finite _ n k =>
    let low := min e k
    f.round false ((m * pow2 (e - low) + n * pow2 (k - low)) * pow2 low) (pow2 (-low))
  | .nan, _ => .nan
  | _, .nan => .nan
  | _, _ => .infinite false

/-- The quotient by a natural number other than zero, rounded to the format. -/
def divNat (f : Format) (divisor : Nat) : Number → Number
  | .finite s m e => f.round s (m * pow2 e) (divisor * pow2 (-e))
  | other => other

/-- The double nearest to `digits * 10 ^ exponent`. A magnitude far outside the range of doubles is settled
without computing the power. -/
def ofDecimal (negative : Bool) (digits : Nat) (exponent : Int) : Number :=
  if digits = 0 then .finite negative 0 0
  else if 400 < exponent then .infinite negative
  else if exponent < -400 - (Nat.log2 digits : Int) then .finite negative 0 0
  else double.round negative (digits * pow10 exponent) (pow10 (-exponent))

end Number

end ElementLocator
