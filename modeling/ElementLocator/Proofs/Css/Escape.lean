import ElementLocator.Css.Escape
import ElementLocator.Proofs.Text.PlainName

/-!
# Escapes give back what was written

Reading a written identifier or string gives back its characters. U+0000 alone has no written form and comes back as
U+FFFD. An identifier needs a text behind it that does not continue it; the closing mark of a string is part of its
form.
-/

namespace ElementLocator.Css

variable {c : Char} {cs rest : List Char}

/-- A name that stands in front of the text ends there. -/
def NameEnds (rest : List Char) : Prop := ∀ c ∈ rest.head?, isNameChar c = false ∧ c ≠ '\x00' ∧ c ≠ '\\'

/-! ### Escapes -/

/-- The hexadecimal digits of an ASCII character are few, and they denote its number. -/
theorem toDigits_hex : ∀ n < 128, (Nat.toDigits 16 n).all Text.isHexDigit = true ∧ (Nat.toDigits 16 n).length ≤ 2 ∧
    Text.hexNumber (Nat.toDigits 16 n) = n := by
  decide

/-- The character that reading the written form of a character gives. -/
def readBackChar (c : Char) : Char := if c = '\x00' then replacement else c

/-- The characters that reading the written form of a text gives. -/
def readBack (cs : List Char) : List Char := cs.map readBackChar

/-- Every character but NUL is read back as it is. -/
theorem readBackChar_of_ne (hne : c ≠ '\x00') : readBackChar c = c := if_neg hne

/-- A text without U+0000 comes back as it is. -/
theorem readBack_of_not_mem (hcs : '\x00' ∉ cs) : readBack cs = cs := by
  induction cs with
  | nil => rfl
  | cons c cs ih =>
    rw [List.mem_cons, not_or] at hcs
    rw [readBack, List.map_cons, readBackChar_of_ne (Ne.symm hcs.1), ← readBack, ih hcs.2]

/-- The number of a character stands for the character as it is read back. -/
theorem charOfNumber_toNat (c : Char) : charOfNumber c.toNat = readBackChar c := by
  unfold readBackChar
  split
  · next hnul =>
    rw [hnul]
    rfl
  · next hne =>
    have hzero : c.toNat ≠ 0 := fun heq => hne (Char.toNat_inj.1 heq)
    have hvalid : c.toNat.isValidChar := c.valid
    simp [charOfNumber, hzero, hvalid]

/-- The escape of an ASCII character by its number gives back the character. -/
theorem escapeAt_numberEscape (hc : c.toNat < 128) :
    escapeAt (Nat.toDigits 16 c.toNat ++ ' ' :: rest) = (readBackChar c, rest) := by
  obtain ⟨hhex, hlength, hnumber⟩ := toDigits_hex c.toNat hc
  obtain ⟨x, more, hcons⟩ := List.exists_cons_of_ne_nil (Nat.toDigits_ne_nil (n := c.toNat) (b := 16))
  generalize Nat.toDigits 16 c.toNat = digits at hhex hlength hnumber hcons ⊢
  have htake : (digits ++ ' ' :: rest).take 6 = digits ++ (' ' :: rest).take (6 - digits.length) := by
    rw [List.take_append, List.take_of_length_le (by omega)]
  have hdigits : ((digits ++ ' ' :: rest).take 6).takeWhile Text.isHexDigit = digits := by
    obtain ⟨k, hk⟩ : ∃ k, 6 - digits.length = k + 1 := ⟨5 - digits.length, by omega⟩
    rw [htake, List.takeWhile_append_of_pos (by simpa using hhex), hk, List.take_succ_cons,
      List.takeWhile_cons_of_neg (by decide), List.append_nil]
  have hdrop : dropOneSpace ((digits ++ ' ' :: rest).drop digits.length) = rest := by
    rw [List.drop_left]
    rfl
  have hne' : digits.isEmpty = false := by rw [hcons]; rfl
  have hshape : digits ++ ' ' :: rest = x :: (more ++ ' ' :: rest) := by rw [hcons]; rfl
  rw [hshape] at hdigits hdrop ⊢
  rw [escapeAt, hdigits, hdrop, hnumber, charOfNumber_toNat]
  simp [hne']

/-- A hexadecimal digit is a name character. -/
theorem isNameChar_of_isHexDigit (h : Text.isHexDigit c = true) : isNameChar c = true := by
  simp only [Text.isHexDigit, Bool.or_eq_true, Bool.and_eq_true, decide_eq_true_eq, Char.le_def,
    UInt32.le_iff_toNat_le] at h
  have ha : ('a' : Char).val.toNat = 97 := rfl
  have hf : ('f' : Char).val.toNat = 102 := rfl
  have hA : ('A' : Char).val.toNat = 65 := rfl
  have hF : ('F' : Char).val.toNat = 70 := rfl
  rcases h with (h | h) | h
  · simp [isNameChar, Char.isAlphanum, h]
  · have hlower : c.isLower = true := by
      simp only [Char.isLower, Bool.and_eq_true, decide_eq_true_eq, UInt32.le_iff_toNat_le]
      have hz : ('z' : Char).val.toNat = 122 := rfl
      omega
    simp [isNameChar, Char.isAlphanum, Char.isAlpha, hlower]
  · have hupper : c.isUpper = true := by
      simp only [Char.isUpper, decide_eq_true_eq, UInt32.le_iff_toNat_le]
      have hZ : ('Z' : Char).val.toNat = 90 := rfl
      omega
    simp [isNameChar, Char.isAlphanum, Char.isAlpha, hupper]

/-- A character that is no hexadecimal digit, behind a reverse solidus. -/
theorem escapeAt_self (hc : Text.isHexDigit c = false) (hne : c ≠ '\x00') : escapeAt (c :: rest) = (c, rest) := by
  simp [escapeAt, hc, hne]

/-- Line ends are control characters. -/
theorem isControl_of_isNewline (h : isNewline c = true) : isControl c = true := by
  simp only [isNewline, Bool.or_eq_true, beq_iff_eq] at h
  rcases h with (rfl | rfl) | rfl <;> decide

/-- Control characters are within ASCII. -/
theorem toNat_lt_of_isControl (h : isControl c = true) : c.toNat < 128 := by
  simp only [isControl, Bool.or_eq_true, decide_eq_true_eq, beq_iff_eq] at h
  omega

/-- The digits of a number do not start with a line end. -/
theorem startsLine_toDigits (n : Nat) (hn : n < 128) : startsLine (Nat.toDigits 16 n ++ rest) = false := by
  obtain ⟨hhex, -, -⟩ := toDigits_hex n hn
  obtain ⟨x, more, hcons⟩ := List.exists_cons_of_ne_nil (Nat.toDigits_ne_nil (n := n) (b := 16))
  rw [hcons] at hhex ⊢
  have hx : Text.isHexDigit x = true := by simpa using (List.all_eq_true.1 hhex) x List.mem_cons_self
  by_contra hline
  have hnewline : isNewline x = true := by simpa [startsLine] using hline
  simp only [isNewline, Bool.or_eq_true, beq_iff_eq] at hnewline
  rcases hnewline with (rfl | rfl) | rfl <;> revert hx <;> decide

/-! ### Names -/

/-- No name is read where none begins. -/
theorem nameRun_of_nameEnds (h : NameEnds rest) : nameRun rest = ([], rest) := by
  cases rest with
  | nil => rw [nameRun]
  | cons c rest =>
    obtain ⟨hname, hnul, hslash⟩ := h c rfl
    simp [nameRun, hname, hnul, hslash]

/-- An escape by number is a reverse solidus, the hexadecimal digits and a space. -/
theorem numberEscape_append (c : Char) (rest : List Char) :
    numberEscape c ++ rest = '\\' :: (Nat.toDigits 16 c.toNat ++ ' ' :: rest) := by
  simp [numberEscape]

/-- An escape by number is read as one character of the name in front of the rest. -/
theorem nameRun_numberEscape (hc : c.toNat < 128) :
    nameRun (numberEscape c ++ rest) = (readBackChar c :: (nameRun rest).1, (nameRun rest).2) := by
  have hname : isNameChar '\\' = false := by decide
  rw [numberEscape_append, nameRun, hname, startsLine_toDigits _ hc, escapeAt_numberEscape hc]
  simp

/-- Reading the written form of a character of a name gives the character. -/
theorem nameRun_writeNameChar (c : Char) (rest : List Char) :
    nameRun (writeNameChar c ++ rest) = (readBackChar c :: (nameRun rest).1, (nameRun rest).2) := by
  unfold writeNameChar
  split
  · next hname =>
    have hne : c ≠ '\x00' := by
      rintro rfl
      revert hname
      decide
    rw [List.singleton_append, nameRun, if_pos hname, readBackChar_of_ne hne]
  split
  · next hnul =>
    have hreplacement : isNameChar replacement = true := by decide
    rw [hnul, List.singleton_append, nameRun, if_pos hreplacement]
    rfl
  · next hname hne =>
    split
    · next hcontrol => exact nameRun_numberEscape (toNat_lt_of_isControl hcontrol)
    · next hcontrol =>
      have hhex : Text.isHexDigit c = false := by
        by_contra hhex
        exact hname (isNameChar_of_isHexDigit (by simpa using hhex))
      have hline : startsLine (c :: rest) = false := by
        by_contra hline
        exact hcontrol (isControl_of_isNewline (by simpa [startsLine] using hline))
      have hslash : isNameChar '\\' = false := by decide
      rw [List.cons_append, List.singleton_append, nameRun, hslash, hline, escapeAt_self hhex hne,
        readBackChar_of_ne hne]
      simp

/-- A written name is read back in front of what the rest goes on with. -/
theorem nameRun_writeName (cs rest : List Char) :
    nameRun (writeName cs ++ rest) = (readBack cs ++ (nameRun rest).1, (nameRun rest).2) := by
  induction cs with
  | nil => rfl
  | cons c cs ih =>
    rw [writeName, List.flatMap_cons, List.append_assoc, nameRun_writeNameChar, ← writeName, ih]
    rfl

/-- A character of the written form stands for itself. -/
theorem nameRun_cons (hc : isNameChar c = true) :
    nameRun (c :: rest) = (c :: (nameRun rest).1, (nameRun rest).2) := by
  rw [nameRun, if_pos hc]

/-- Digits are within ASCII, and none of them is NUL. -/
theorem toNat_lt_of_isDigit (h : c.isDigit = true) : c.toNat < 128 ∧ c ≠ '\x00' := by
  refine ⟨Nat.lt_of_le_of_lt (Text.toNat_of_isDigit h).2 (by decide), ?_⟩
  exact Text.ne_of_kind h (by decide)

/-- A written start of a name is read back in front of what the rest goes on with. -/
theorem nameRun_writeStart (cs rest : List Char) :
    nameRun (writeStart cs ++ rest) = (readBack cs ++ (nameRun rest).1, (nameRun rest).2) := by
  cases cs with
  | nil => rfl
  | cons c cs =>
    rw [writeStart]
    split
    · next hdigit =>
      rw [List.append_assoc, nameRun_numberEscape (toNat_lt_of_isDigit hdigit).1, nameRun_writeName]
      rfl
    · exact nameRun_writeName _ _

/-- Reading a written identifier gives its characters. -/
theorem nameRun_writeIdentifier (cs : List Char) (hrest : NameEnds rest) :
    nameRun (writeIdentifier cs ++ rest) = (readBack cs, rest) := by
  have hhyphen : isNameChar '-' = true := by decide
  have hrun : nameRun (writeIdentifier cs ++ rest) = (readBack cs ++ (nameRun rest).1, (nameRun rest).2) := by
    unfold writeIdentifier
    split
    · next later =>
      rw [List.cons_append, List.cons_append, nameRun_cons hhyphen, nameRun_cons hhyphen, nameRun_writeName]
      rfl
    · have hslash : isNameChar '\\' = false := by decide
      have hline : startsLine ('-' :: rest) = false := by rfl
      have hhex : Text.isHexDigit '-' = false := by decide
      rw [List.cons_append, List.singleton_append, nameRun, hslash, hline, escapeAt_self hhex (by decide)]
      rfl
    · rw [List.cons_append, nameRun_cons hhyphen, nameRun_writeStart]
      rfl
    · exact nameRun_writeStart _ _
  rw [hrun, nameRun_of_nameEnds hrest, List.append_nil]

/-! ### Strings -/

/-- Reading the written form of a character of a string gives the character. -/
theorem stringRun_writeStringChar (c : Char) (rest : List Char) :
    stringRun '\'' (writeStringChar c ++ rest) =
      ((stringRun '\'' rest).1, readBackChar c :: (stringRun '\'' rest).2.1, (stringRun '\'' rest).2.2) := by
  have hnewline : isNewline '\\' = false := by decide
  unfold writeStringChar
  split
  · next hquote =>
    have hhex : Text.isHexDigit c = false := by rcases hquote with rfl | rfl <;> decide
    have hline : startsLine (c :: rest) = false := by rcases hquote with rfl | rfl <;> rfl
    have hne : c ≠ '\x00' := by rcases hquote with rfl | rfl <;> decide
    rw [List.cons_append, List.singleton_append, stringRun, hnewline, hline, escapeAt_self hhex hne,
      readBackChar_of_ne hne]
    simp
  · next hquote =>
    rw [not_or] at hquote
    split
    · next hcontrol =>
      have hlt := toNat_lt_of_isControl hcontrol
      have hempty : (Nat.toDigits 16 c.toNat ++ ' ' :: rest).isEmpty = false := by simp
      rw [numberEscape_append, stringRun, hnewline, hempty, startsLine_toDigits _ hlt, escapeAt_numberEscape hlt]
      simp
    · next hcontrol =>
      have hline : isNewline c = false := by
        by_contra hline
        exact hcontrol (isControl_of_isNewline (by simpa using hline))
      have hne : c ≠ '\x00' := by
        rintro rfl
        exact hcontrol (by decide)
      rw [List.singleton_append, stringRun, hline, readBackChar_of_ne hne]
      simp [hquote, hne]

/-- Reading a written string gives its characters. -/
theorem stringRun_writeString (cs rest : List Char) :
    stringRun '\'' (cs.flatMap writeStringChar ++ '\'' :: rest) = (true, readBack cs, rest) := by
  induction cs with
  | nil => simp [stringRun, readBack]
  | cons c cs ih =>
    rw [List.flatMap_cons, List.append_assoc, stringRun_writeStringChar, ih]
    rfl

end ElementLocator.Css
