import ElementLocator.Css.ComponentValue
import ElementLocator.Css.Error
import ElementLocator.Css.Selector
import ElementLocator.Text.Ascii

/-!
# The argument of `:nth-child` and its kin

The places among siblings are written as `odd`, `even`, an integer, or `An+B`. Since a hyphen belongs to names and
a sign to numbers, `n-1` is one token, `n -1` are two and `n - 1` are three; all of them mean the same. A plus
sign may stand in front of `n`, but not of `odd` and `even`. Integers have 32 bits.
-/

namespace ElementLocator.Css.Places

open ComponentValue (skipSpace)

/-- The two numbers of `An+B`, and the component values behind them. -/
abbrev Result := Except Fault ((Int × Int) × List ComponentValue)

/-- The number behind a free-standing sign, which must have no sign of its own. -/
def unsigned (step sign : Int) (vs : List ComponentValue) : Result :=
  match skipSpace vs with
  | .single (.number ⟨false, _, some offset⟩) :: rest => .ok ((step, sign * offset), rest)
  | v :: _ => .error (.unexpected v.head)
  | [] => .error .endOfInput

/-- What may follow `An`: a sign and a number, a number with a sign, or nothing. -/
def offset (step : Int) (vs : List ComponentValue) : Result :=
  match skipSpace vs with
  | .single (.delim '+') :: rest => unsigned step 1 rest
  | .single (.delim '-') :: rest => unsigned step (-1) rest
  | .single (.number ⟨true, _, some offset⟩) :: rest => .ok ((step, offset), rest)
  | _ => .ok ((step, 0), vs)

/-- The number in a name such as `n-12`, including its hyphen. -/
def dashDigits? (name : List Char) : Option Int :=
  match name with
  | n :: '-' :: digits =>
    if (n = 'n' || n = 'N') && !digits.isEmpty && digits.all Char.isDigit then
      some (max (-0x80000000) (-(Nat.ofDigitChars 10 digits 0 : Int)))
    else none
  | _ => none

/-- The places after a name that starts with `n`, without a sign; `shown` is the whole name. -/
def afterName (step : Int) (name : List Char) (shown : String) (rest : List ComponentValue) : Result :=
  if name.map Char.toLower = ['n'] then offset step rest
  else if name.map Char.toLower = ['n', '-'] then unsigned step (-1) rest
  else match dashDigits? name with
    | some offset => .ok ((step, offset), rest)
    | none => .error (.unexpected (.ident shown))

/-- The places that a name without a plus sign in front of it stands for. -/
def named (name : String) (rest : List ComponentValue) : Result :=
  if Text.lower name = "even" then .ok ((2, 0), rest)
  else if Text.lower name = "odd" then .ok ((2, 1), rest)
  else match name.toList with
    | '-' :: later => afterName (-1) later name rest
    | cs => afterName 1 cs name rest

/-- The two numbers of the places at the front of component values. -/
def parse (vs : List ComponentValue) : Result :=
  match skipSpace vs with
  | [] => .error .endOfInput
  | .single (.number ⟨_, _, some offset⟩) :: rest => .ok ((0, offset), rest)
  | .single (.dimension ⟨_, _, some step⟩ unit) :: rest => afterName step unit.toList unit rest
  | .single (.ident name) :: rest => named name rest
  | .single (.delim '+') :: rest =>
    match rest with
    | .single (.ident name) :: later => afterName 1 name.toList name later
    | v :: _ => .error (.unexpected v.head)
    | [] => .error .endOfInput
  | v :: _ => .error (.unexpected v.head)

end ElementLocator.Css.Places
