import ElementLocator.Json.Reader.Value
import Mathlib

/-!
# The grammar of JSON texts

The rules of the format as relations between what is left of a text in front of a part and what is left of it behind
that part. A string is related to its text as well, and the inside of brackets to its items. Nothing here refers to
the readers: no bound, no place where a reader must stop, no stack of open brackets.
-/

namespace ElementLocator.Json

/-- The character that starts an array or an object. -/
def Reader.Bracket.opening : Reader.Bracket → Char
  | .array => '['
  | .object => '\x7b'

namespace Derives

open Reader (Bracket isBlank shortEscape? isFirstSurrogate isSecondSurrogate)

/-- Blank characters, or nothing. -/
inductive Blanks : List Char → List Char → Prop
  | none {x : List Char} : Blanks x x
  | cons {c : Char} {x y : List Char} : isBlank c = true → Blanks x y → Blanks (c :: x) y

/-! ### Strings -/

/-- Four hexadecimal digits and their number. -/
inductive FourDigits : List Char → Nat → List Char → Prop
  | digits {a b c d : Char} {x : List Char} : (∀ digit ∈ [a, b, c, d], Text.isHexDigit digit = true) →
      FourDigits (a :: b :: c :: d :: x) (Text.hexNumber [a, b, c, d]) x

/-- A character that may stand for itself inside a string. -/
def Unescaped (c : Char) : Prop := 0x20 ≤ c.toNat ∧ c ≠ '"' ∧ c ≠ '\\'

instance (c : Char) : Decidable (Unescaped c) := inferInstanceAs (Decidable (_ ∧ _ ∧ _))

/-- An escape behind its reverse solidus, and the character it stands for. A character beyond sixteen bits may be
written as two surrogates. -/
inductive Escape : List Char → Char → List Char → Prop
  | short {letter c : Char} {x : List Char} : shortEscape? letter = some c → Escape (letter :: x) c x
  | number {n : Nat} {x y : List Char} :
      FourDigits x n y → isFirstSurrogate n = false → isSecondSurrogate n = false →
      Escape ('u' :: x) (Char.ofNat n) y
  | surrogates {n k : Nat} {x y z : List Char} :
      FourDigits x n ('\\' :: 'u' :: y) → isFirstSurrogate n = true → FourDigits y k z → isSecondSurrogate k = true →
      Escape ('u' :: x) (Char.ofNat ((n - 0xd800) * 0x400 + (k - 0xdc00) + 0x10000)) z

/-- A string behind its opening quotation mark, and the characters it stands for. -/
inductive Literal : List Char → List Char → List Char → Prop
  | closing {x : List Char} : Literal ('"' :: x) [] x
  | itself {c : Char} {cs x y : List Char} : Unescaped c → Literal x cs y → Literal (c :: x) (c :: cs) y
  | escape {c : Char} {cs x y z : List Char} : Escape x c y → Literal y cs z → Literal ('\\' :: x) (c :: cs) z

/-- A string behind its opening quotation mark that need not stand for any characters: its surrogates may be without
a partner. -/
inductive Quoted : List Char → List Char → Prop
  | closing {x : List Char} : Quoted ('"' :: x) x
  | itself {c : Char} {x y : List Char} : Unescaped c → Quoted x y → Quoted (c :: x) y
  | short {letter c : Char} {x y : List Char} :
      shortEscape? letter = some c → Quoted x y → Quoted ('\\' :: letter :: x) y
  | number {n : Nat} {x y z : List Char} : FourDigits x n y → Quoted y z → Quoted ('\\' :: 'u' :: x) z

/-- A string with its quotation marks. -/
inductive StringValue : List Char → String → List Char → Prop
  | quoted {x cs y : List Char} : Literal x cs y → StringValue ('"' :: x) (String.ofList cs) y

/-- Characters that need no escape are a literal as they stand. -/
theorem Literal.of_unescaped {cs : List Char} (h : ∀ c ∈ cs, Unescaped c) (x : List Char) :
    Literal (cs ++ '"' :: x) cs x := by
  induction cs with
  | nil => exact .closing
  | cons c cs ih =>
    rw [List.forall_mem_cons] at h
    exact .itself h.1 (ih h.2)

/-- A text in which nothing must be escaped stands for itself. -/
theorem StringValue.of_unescaped {text : String} (h : ∀ c ∈ text.toList, Unescaped c) (x : List Char) :
    StringValue ('"' :: (text.toList ++ '"' :: x)) text x := by
  have hquoted := StringValue.quoted (Literal.of_unescaped h x)
  rwa [String.ofList_toList] at hquoted

/-! ### Numbers -/

/-- One or more digits. -/
inductive Digits : List Char → List Char → Prop
  | one {c : Char} {x : List Char} : c.isDigit = true → Digits (c :: x) x
  | cons {c : Char} {x y : List Char} : c.isDigit = true → Digits x y → Digits (c :: x) y

/-- The digits before the point: a zero stands alone. -/
inductive Whole : List Char → List Char → Prop
  | zero {x : List Char} : Whole ('0' :: x) x
  | digits {c : Char} {x y : List Char} : c ≠ '0' → Digits (c :: x) y → Whole (c :: x) y

/-- A point and digits, or nothing. -/
inductive Fraction : List Char → List Char → Prop
  | none {x : List Char} : Fraction x x
  | point {x y : List Char} : Digits x y → Fraction ('.' :: x) y

/-- A plus or a minus, or nothing. -/
inductive Sign : List Char → List Char → Prop
  | none {x : List Char} : Sign x x
  | plus {x : List Char} : Sign ('+' :: x) x
  | minus {x : List Char} : Sign ('-' :: x) x

/-- A power of ten, or nothing. -/
inductive Exponent : List Char → List Char → Prop
  | none {x : List Char} : Exponent x x
  | power {c : Char} {x y z : List Char} : c = 'e' ∨ c = 'E' → Sign x y → Digits y z → Exponent (c :: x) z

/-- A number without a minus in front of it. -/
inductive Magnitude : List Char → List Char → Prop
  | parts {x y z w : List Char} : Whole x y → Fraction y z → Exponent z w → Magnitude x w

/-! ### Values -/

/-- A truth value. -/
inductive Truth : List Char → Bool → List Char → Prop
  | yes {x : List Char} : Truth ('t' :: 'r' :: 'u' :: 'e' :: x) true x
  | no {x : List Char} : Truth ('f' :: 'a' :: 'l' :: 's' :: 'e' :: x) false x

/-- A value without brackets. -/
inductive Scalar : List Char → List Char → Prop
  | null {x : List Char} : Scalar ('n' :: 'u' :: 'l' :: 'l' :: x) x
  | truth {value : Bool} {x y : List Char} : Truth x value y → Scalar x y
  | string {x y : List Char} : Quoted x y → Scalar ('"' :: x) y
  | positive {x y : List Char} : Magnitude x y → Scalar x y
  | negative {x y : List Char} : Magnitude x y → Scalar ('-' :: x) y

/-- What stands in front of a value inside brackets: nothing in an array, a name and a colon in an object. -/
inductive Key : Bracket → List Char → List Char → Prop
  | none {x : List Char} : Key .array x x
  | name {x y z w : List Char} : Quoted x y → Blanks y (':' :: z) → Blanks z w → Key .object ('"' :: x) w

mutual

/-- A value of any kind. -/
inductive Value : List Char → List Char → Prop
  | scalar {x y : List Char} : Scalar x y → Value x y
  | empty {bracket : Bracket} {x y : List Char} :
      Blanks x (bracket.closing :: y) → Value (bracket.opening :: x) y
  | filled {bracket : Bracket} {x y z : List Char} :
      Blanks x y → Inside bracket y z → Value (bracket.opening :: x) z

/-- Values with commas between them, up to and with the closing bracket. -/
inductive Inside : Bracket → List Char → List Char → Prop
  | last {bracket : Bracket} {x y z w : List Char} :
      Key bracket x y → Value y z → Blanks z (bracket.closing :: w) → Inside bracket x w
  | cons {bracket : Bracket} {x y z v u w : List Char} :
      Key bracket x y → Value y z → Blanks z (',' :: v) → Blanks v u → Inside bracket u w → Inside bracket x w

end

/-! ### Brackets around known items -/

section Brackets

variable {α : Type}

/-- Items with commas between them, up to and with the closing bracket. -/
inductive Items (bracket : Bracket) (item : List Char → α → List Char → Prop) : List Char → List α → List Char → Prop
  | last {a : α} {x y z : List Char} : item x a y → Blanks y (bracket.closing :: z) → Items bracket item x [a] z
  | cons {a : α} {as : List α} {x y z v w : List Char} :
      item x a y → Blanks y (',' :: z) → Blanks z v → Items bracket item v as w → Items bracket item x (a :: as) w

/-- Items in brackets. -/
inductive Bracketed (bracket : Bracket) (item : List Char → α → List Char → Prop) :
    List Char → List α → List Char → Prop
  | empty {x y : List Char} : Blanks x (bracket.closing :: y) → Bracketed bracket item (bracket.opening :: x) [] y
  | filled {as : List α} {x y z : List Char} :
      Blanks x y → Items bracket item y as z → Bracketed bracket item (bracket.opening :: x) as z

end Brackets

/-! ### What a part leaves of a text

Optional parts leave no more than there was, and all others leave less. -/

section Lengths

variable {x y : List Char}

/-- Blanks are skipped, so that no more of the text is left. -/
theorem Blanks.length_le (h : Blanks x y) : y.length ≤ x.length := by
  induction h with
  | none => exact le_rfl
  | cons _ _ ih => exact ih.trans (Nat.le_succ _)

/-- Four digits take four characters. -/
theorem FourDigits.length_eq {n : Nat} (h : FourDigits x n y) : x.length = y.length + 4 := by
  cases h
  rfl

/-- An escape takes something from the text. -/
theorem Escape.length_lt {c : Char} (h : Escape x c y) : y.length < x.length := by
  cases h with
  | short => exact Nat.lt_succ_self _
  | number h =>
    rw [List.length_cons, h.length_eq]
    omega
  | surrogates h _ hk _ =>
    rw [List.length_cons, h.length_eq, List.length_cons, List.length_cons, hk.length_eq]
    omega

/-- A literal takes something from the text, its closing quotation mark at least. -/
theorem Literal.length_lt {cs : List Char} (h : Literal x cs y) : y.length < x.length := by
  induction h with
  | closing => exact Nat.lt_succ_self _
  | itself _ _ ih => exact Nat.lt_succ_of_lt ih
  | escape h _ ih => exact Nat.lt_succ_of_lt (ih.trans h.length_lt)

/-- A string takes something from the text. -/
theorem StringValue.length_lt {text : String} (h : StringValue x text y) : y.length < x.length := by
  cases h with
  | quoted h => exact Nat.lt_succ_of_lt h.length_lt

/-- A text in quotation marks takes something from the text. -/
theorem Quoted.length_lt (h : Quoted x y) : y.length < x.length := by
  induction h with
  | closing => exact Nat.lt_succ_self _
  | itself _ _ ih => exact Nat.lt_succ_of_lt ih
  | short _ _ ih =>
    rw [List.length_cons, List.length_cons]
    omega
  | number h _ ih =>
    rw [List.length_cons, List.length_cons, h.length_eq]
    omega

/-- Digits take something from the text. -/
theorem Digits.length_lt (h : Digits x y) : y.length < x.length := by
  induction h with
  | one => exact Nat.lt_succ_self _
  | cons _ _ ih => exact Nat.lt_succ_of_lt ih

/-- A whole number takes something from the text. -/
theorem Whole.length_lt (h : Whole x y) : y.length < x.length := by
  cases h with
  | zero => exact Nat.lt_succ_self _
  | digits _ h => exact h.length_lt

/-- A fraction may be absent, but leaves no more of the text. -/
theorem Fraction.length_le (h : Fraction x y) : y.length ≤ x.length := by
  cases h with
  | none => exact le_rfl
  | point h => exact (Nat.lt_succ_of_lt h.length_lt).le

/-- An exponent may be absent, but leaves no more of the text. -/
theorem Exponent.length_le (h : Exponent x y) : y.length ≤ x.length := by
  cases h with
  | none => exact le_rfl
  | power _ hsign h =>
    have hlt := h.length_lt
    cases hsign <;> simp only [List.length_cons] <;> omega

/-- A magnitude takes something from the text. -/
theorem Magnitude.length_lt (h : Magnitude x y) : y.length < x.length := by
  obtain ⟨hwhole, hfraction, hexponent⟩ := h
  exact (hexponent.length_le.trans hfraction.length_le).trans_lt hwhole.length_lt

/-- A truth value takes something from the text. -/
theorem Truth.length_lt {value : Bool} (h : Truth x value y) : y.length < x.length := by
  cases h <;> simp only [List.length_cons] <;> omega

/-- A scalar takes something from the text. -/
theorem Scalar.length_lt (h : Scalar x y) : y.length < x.length := by
  cases h with
  | null =>
    simp only [List.length_cons]
    omega
  | truth h => exact h.length_lt
  | string h => exact Nat.lt_succ_of_lt h.length_lt
  | positive h => exact h.length_lt
  | negative h => exact Nat.lt_succ_of_lt h.length_lt

/-- A key leaves no more of the text, as a list has none. -/
theorem Key.length_le {bracket : Bracket} (h : Key bracket x y) : y.length ≤ x.length := by
  cases h with
  | none => exact le_rfl
  | name hname hcolon hb =>
    have hlt := hname.length_lt
    have hle := hcolon.length_le
    have hle' := hb.length_le
    simp only [List.length_cons] at *
    omega

mutual

/-- A value takes something from the text. -/
theorem Value.length_lt {x y : List Char} : Value x y → y.length < x.length
  | .scalar h => h.length_lt
  | .empty hclosing => by
    have hle := hclosing.length_le
    simp only [List.length_cons] at *
    omega
  | .filled hb h => by
    have hle := hb.length_le
    have hlt := h.length_lt
    rw [List.length_cons]
    omega

/-- What is inside brackets takes something from the text, the closing bracket at least. -/
theorem Inside.length_lt {bracket : Bracket} {x y : List Char} : Inside bracket x y → y.length < x.length
  | .last hkey hvalue hclosing => by
    have hle := hkey.length_le
    have hlt := hvalue.length_lt
    have hle' := hclosing.length_le
    rw [List.length_cons] at hle'
    omega
  | .cons hkey hvalue hcomma hb h => by
    have hle := hkey.length_le
    have hlt := hvalue.length_lt
    have hle' := hcomma.length_le
    have hle'' := hb.length_le
    have hlt' := h.length_lt
    rw [List.length_cons] at hle'
    omega

end

section Items

variable {α : Type} {bracket : Bracket} {item : List Char → α → List Char → Prop} {as : List α}

/-- There are no more items than characters. -/
theorem Items.length_lt (hitem : ∀ x a y, item x a y → y.length < x.length) (h : Items bracket item x as y) :
    as.length + y.length < x.length := by
  induction h with
  | last h hb =>
    have hlt := hitem _ _ _ h
    have hle := hb.length_le
    simp only [List.length_cons, List.length_nil] at *
    omega
  | cons h hcomma hb _ ih =>
    have hlt := hitem _ _ _ h
    have hle := hcomma.length_le
    have hle' := hb.length_le
    simp only [List.length_cons] at *
    omega

/-- Bracketed items take something from the text if each item does. -/
theorem Bracketed.length_lt (hitem : ∀ x a y, item x a y → y.length < x.length) (h : Bracketed bracket item x as y) :
    y.length < x.length := by
  cases h with
  | empty hclosing =>
    have hle := hclosing.length_le
    simp only [List.length_cons] at *
    omega
  | filled hb h =>
    have hle := hb.length_le
    have hlt := h.length_lt hitem
    rw [List.length_cons]
    omega

end Items

end Lengths

/-! ### How a part starts -/

section Heads

variable {x y : List Char}

/-- A digit is no blank. -/
theorem isBlank_of_isDigit {c : Char} (h : c.isDigit = true) : isBlank c = false := by
  rw [← Bool.not_eq_true]
  intro hblank
  simp only [isBlank, Bool.or_eq_true, beq_iff_eq] at hblank
  rcases hblank with ((rfl | rfl) | rfl) | rfl <;> exact absurd h (by decide)

/-- What starts with digits starts with a digit. -/
theorem Digits.head (h : Digits x y) : ∀ c ∈ x.head?, c.isDigit = true := by
  cases h with
  | one hc | cons hc _ => simpa using hc

/-- What starts with a magnitude starts with a digit. -/
theorem Magnitude.head (h : Magnitude x y) : ∃ c rest, x = c :: rest ∧ c.isDigit = true := by
  obtain ⟨hwhole, -, -⟩ := h
  cases hwhole with
  | zero => exact ⟨_, _, rfl, rfl⟩
  | digits _ h => exact ⟨_, _, rfl, h.head _ rfl⟩

/-- A scalar starts neither with a blank nor with the end of an array. -/
theorem Scalar.head (h : Scalar x y) : ∃ c rest, x = c :: rest ∧ isBlank c = false ∧ c ≠ ']' := by
  cases h with
  | null | string | negative => exact ⟨_, _, rfl, by decide⟩
  | truth h => cases h <;> exact ⟨_, _, rfl, by decide⟩
  | positive h =>
    obtain ⟨c, rest, rfl, hdigit⟩ := h.head
    refine ⟨c, rest, rfl, isBlank_of_isDigit hdigit, ?_⟩
    rintro rfl
    exact absurd hdigit (by decide)

/-- A value starts with a character that neither is blank nor ends an array. -/
theorem Value.head (h : Value x y) : ∃ c rest, x = c :: rest ∧ isBlank c = false ∧ c ≠ ']' := by
  cases h with
  | scalar h => exact h.head
  | @empty bracket | @filled bracket => cases bracket <;> exact ⟨_, _, rfl, by decide⟩

/-- The inside of brackets starts with a character that neither is blank nor ends them. -/
theorem Inside.head {bracket : Bracket} (h : Inside bracket x y) :
    ∃ c rest, x = c :: rest ∧ isBlank c = false ∧ c ≠ bracket.closing := by
  cases h with
  | last hkey h | cons hkey h =>
    cases hkey with
    | none => exact h.head
    | name => exact ⟨_, _, rfl, by decide⟩

/-- Bracketed items start with the opening bracket. -/
theorem Bracketed.head {α : Type} {bracket : Bracket} {item : List Char → α → List Char → Prop} {as : List α}
    (h : Bracketed bracket item x as y) : ∃ rest, x = bracket.opening :: rest := by
  cases h <;> exact ⟨_, rfl⟩

end Heads

end Derives

end ElementLocator.Json
