import ElementLocator.Json.Reader

/-!
# Reading JSON numbers

A whole number that fits 64 bits is exact. Any other number becomes a double: its digits are taken as long as they
fit 64 bits, rounded, and then multiplied or divided by a rounded power of ten.
-/

namespace ElementLocator.Json.Reader

/-- The greatest number of 64 bits. -/
def greatestWord : Nat := 0xFFFFFFFFFFFFFFFF

/-- Appends digits to a number as long as it fits 64 bits; the digits left over come back. -/
def takeDigits (n : Nat) : List Char → Nat × List Char
  | [] => (n, [])
  | c :: rest =>
    let next := 10 * n + (c.toNat - 0x30)
    if greatestWord < next then (n, c :: rest) else takeDigits next rest

/-- A power of ten as a double, given by the natural number that it is. -/
def roundedPower (k : Nat) : Nat :=
  match Number.ofNat (Number.pow10 k) with
  | .finite _ m e => m * Number.pow2 e
  | _ => 0

/-- The double for a number times a power of ten, if it is not too great. A very small number is divided in
several steps, each within the range of the powers. -/
def scaled? : Nat → Number → Int → Option Number
  | 0, n, _ => some n
  | bound + 1, n, e =>
    if e.natAbs ≤ 308 then
      if e < 0 then some (n.divNat Number.double (roundedPower e.natAbs))
      else match Number.mul Number.double n (Number.ofNat (roundedPower e.natAbs)) with
        | .infinite _ => none
        | product => some product
    else if n.isZero then some n
    else if 0 ≤ e then none
    else scaled? bound (n.divNat Number.double (roundedPower 308)) (e + 308)

/-- The number with a sign. -/
def signed (negative : Bool) : Number → Number
  | .finite _ m e => .finite negative m e
  | other => other

/-- The double with the given digits, exponent and sign. -/
def decimal (negative : Bool) (digits : Nat) (exponent : Int) : Reader Shape :=
  match scaled? 6 (Number.ofNat digits) exponent with
  | some n => pure (.decimal (signed negative n))
  | none => fail .numberOutOfRange

/-- The greatest size of an exponent. -/
def greatestExponent : Nat := 0x7FFFFFFF

/-- The digits of an exponent up to the first one with which it is too great. -/
def overflowPrefix (n : Nat) : List Char → Option (List Char)
  | [] => none
  | c :: rest =>
    let next := 10 * n + (c.toNat - 0x30)
    if greatestExponent < next then some [c] else (overflowPrefix next rest).map (c :: ·)

/-- A number whose digits were read, from the mark of its exponent on. An exponent that is too great is noticed at
the digit that makes it so. -/
def withExponent (negative : Bool) (digits : Nat) (start : Int) : Reader Shape := do
  skip
  let sign ← peek
  if sign = some '+' ∨ sign = some '-' then skip
  match ← peek with
  | none => fail .endInValue
  | some c =>
    if c.isDigit then
      let before ← get
      let exponent ← run Char.isDigit
      match overflowPrefix 0 exponent with
      | some seen =>
        if digits ≠ 0 ∧ sign ≠ some '-' then
          fun _ => .error ⟨.numberOutOfRange, seen.foldl Position.pastChar before.position⟩
        else pure (.decimal (.finite negative 0 0))
      | none =>
        let size : Int := Nat.ofDigitChars 10 exponent 0
        decimal negative digits (if sign = some '-' then start - size else start + size)
    else refuse .invalidNumber

/-- A number that is not whole, its digits and exponent so far being given: the exponent may follow. -/
def afterFraction (negative : Bool) (digits : Nat) (exponent : Int) : Reader Shape := do
  let next ← peek
  if next = some 'e' ∨ next = some 'E' then withExponent negative digits exponent
  else decimal negative digits exponent

/-- A number whose digits before the point were read, from the point on. -/
def withFraction (negative : Bool) (digits : Nat) (start : Int) : Reader Shape := do
  skip
  let fraction ← run Char.isDigit
  if fraction.isEmpty then
    match ← peek with
    | none => fail .endInValue
    | some _ => refuse .invalidNumber
  else
    let (all, left) := takeDigits digits fraction
    afterFraction negative all (start - (fraction.length - left.length : Nat))

/-- A number whose whole part was read. A negative zero and whole numbers beyond 64 bits are not exact. -/
def afterWhole (negative : Bool) (digits : Nat) (dropped : Nat) : Reader Shape := do
  let next ← peek
  if next = some '.' then withFraction negative digits dropped
  else if next = some 'e' ∨ next = some 'E' then withExponent negative digits dropped
  else if dropped ≠ 0 then decimal negative digits dropped
  else if !negative then pure (.integer digits)
  else if digits = 0 ∨ 0x8000000000000000 < digits then pure (.decimal (signed true (Number.ofNat digits)))
  else pure (.integer (-digits))

/-- A number whose sign was read. -/
def number (negative : Bool) : Reader Shape := do
  match ← peek with
  | none => fail .endInValue
  | some '0' =>
    skip
    match ← peek with
    | some c => if c.isDigit then refuse .invalidNumber else afterWhole negative 0 0
    | none => afterWhole negative 0 0
  | some c =>
    if c.isDigit then
      let (digits, left) := takeDigits 0 (← run Char.isDigit)
      afterWhole negative digits left.length
    else refuse .invalidNumber

/-- Passes over the exponent of a number if there is one. -/
def skipExponent : Reader Unit := do
  let next ← peek
  if next = some 'e' ∨ next = some 'E' then
    skip
    let sign ← peek
    if sign = some '+' ∨ sign = some '-' then skip
    if (← run Char.isDigit).isEmpty then refuse .invalidNumber

/-- Passes over a number whose sign was read. -/
def skipNumber : Reader Unit := do
  let next ← peek
  if next = some '0' then
    skip
    if ((← peek).any Char.isDigit) then refuse .invalidNumber
  else if (← run Char.isDigit).isEmpty then refuse .invalidNumber
  if (← peek) = some '.' then
    skip
    if (← run Char.isDigit).isEmpty then refuse .invalidNumber
  skipExponent

end ElementLocator.Json.Reader
