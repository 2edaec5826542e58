import ElementLocator.Proofs.Text.LetterCase
import ElementLocator.Text.Blank

/-!
# Plain names

Most tags and attribute names are plain: an ASCII letter, followed by ASCII letters, digits, hyphens and underscores.
Letter case does not matter for being plain.
-/

namespace ElementLocator.Text

/-- An ASCII letter or digit, a hyphen or an underscore. -/
def isPlainChar (c : Char) : Bool := c.isAlphanum || c == '-' || c == '_'

/-- A letter with plain characters behind it. -/
def isPlainChars : List Char → Bool
  | [] => false
  | c :: rest => c.isAlpha && rest.all isPlainChar

/-- A name that is an ASCII letter followed by ASCII letters, digits, hyphens and underscores. -/
def IsPlain (name : String) : Prop := isPlainChars name.toList = true

instance (name : String) : Decidable (IsPlain name) := inferInstanceAs (Decidable (_ = true))

variable {c : Char} {cs : List Char} {name : String}

/-- Plain characters are a letter and then letters, digits, hyphens or underscores. -/
theorem isPlainChars_iff :
    isPlainChars cs = true ↔ ∃ c rest, cs = c :: rest ∧ c.isAlpha = true ∧ ∀ x ∈ rest, isPlainChar x = true := by
  cases cs with
  | nil => simp [isPlainChars]
  | cons c rest => simp [isPlainChars]

/-- A character of a kind is none that is not of that kind. -/
theorem ne_of_kind {p : Char → Bool} {x : Char} (hc : p c = true) (hx : p x = false) : c ≠ x := by
  rintro rfl
  rw [hc] at hx
  cases hx

/-- The letters of ASCII have two ranges of numbers. -/
theorem toNat_of_isAlpha (h : c.isAlpha = true) :
    65 ≤ c.toNat ∧ c.toNat ≤ 90 ∨ 97 ≤ c.toNat ∧ c.toNat ≤ 122 := by
  simp only [Char.isAlpha, Char.isUpper, Char.isLower, Bool.or_eq_true, Bool.and_eq_true, decide_eq_true_eq,
    UInt32.le_iff_toNat_le] at h
  exact h

/-- The digits have one range of numbers. -/
theorem toNat_of_isDigit (h : c.isDigit = true) : 48 ≤ c.toNat ∧ c.toNat ≤ 57 := by
  simp only [Char.isDigit, Bool.and_eq_true, decide_eq_true_eq, UInt32.le_iff_toNat_le] at h
  exact h

/-- No letter is a digit. -/
theorem isDigit_of_isAlpha (h : c.isAlpha = true) : c.isDigit = false := by
  by_contra hdigit
  have hletter := toNat_of_isAlpha h
  have hnumber := toNat_of_isDigit (Bool.not_eq_false _ ▸ hdigit)
  omega

/-- No letter is a blank. -/
theorem isBlankChar_of_isAlpha (h : c.isAlpha = true) : isBlankChar c = false := by
  by_contra hblank
  have hletter := toNat_of_isAlpha h
  simp only [isBlankChar, Bool.not_eq_false, Bool.or_eq_true, Bool.and_eq_true, decide_eq_true_eq, beq_iff_eq]
    at hblank
  omega

/-- A letter may stand in a plain name. -/
theorem isPlainChar_of_isAlpha (h : c.isAlpha = true) : isPlainChar c = true := by
  simp [isPlainChar, Char.isAlphanum, h]

/-- Each character of a plain name may stand in one. -/
theorem isPlainChar_of_mem (h : isPlainChars cs = true) (hc : c ∈ cs) : isPlainChar c = true := by
  obtain ⟨first, rest, rfl, hfirst, hrest⟩ := isPlainChars_iff.1 h
  rcases List.mem_cons.1 hc with rfl | hc
  · exact isPlainChar_of_isAlpha hfirst
  · exact hrest c hc

/-- Whether a character may stand in a plain name does not depend on the letter case. -/
theorem isPlainChar_toLower (c : Char) : isPlainChar c.toLower = isPlainChar c := by
  by_cases hupper : c.isUpper = true
  · have halpha : c.isAlpha = true := by simp [Char.isAlpha, hupper]
    rw [isPlainChar_of_isAlpha halpha, isPlainChar_of_isAlpha (by simpa using halpha)]
  · rw [Char.toLower_eq_of_not_isUpper hupper]

/-- The same for upper case. -/
theorem isPlainChar_toUpper (c : Char) : isPlainChar c.toUpper = isPlainChar c := by
  rw [← isPlainChar_toLower c.toUpper, Char.toLower_toUpper_eq_toLower, isPlainChar_toLower]

/-- Whether characters are a plain name does not depend on the letter case. -/
theorem isPlainChars_map_toLower (cs : List Char) : isPlainChars (cs.map Char.toLower) = isPlainChars cs := by
  cases cs with
  | nil => rfl
  | cons c rest =>
    have hrest : isPlainChar ∘ Char.toLower = isPlainChar := funext isPlainChar_toLower
    simp [isPlainChars, List.all_map, hrest]

/-- The same for upper case. -/
theorem isPlainChars_map_toUpper (cs : List Char) : isPlainChars (cs.map Char.toUpper) = isPlainChars cs := by
  cases cs with
  | nil => rfl
  | cons c rest =>
    have hrest : isPlainChar ∘ Char.toUpper = isPlainChar := funext isPlainChar_toUpper
    simp [isPlainChars, List.all_map, hrest]

@[simp] theorem isPlain_lower : IsPlain (lower name) ↔ IsPlain name := by
  rw [IsPlain, toList_lower, isPlainChars_map_toLower, IsPlain]

@[simp] theorem isPlain_upper : IsPlain (upper name) ↔ IsPlain name := by
  rw [IsPlain, toList_upper, isPlainChars_map_toUpper, IsPlain]

end ElementLocator.Text
