import ElementLocator.Proofs.XPath.Spelling
import ElementLocator.XPath.Literal

/-!
# Texts and the tokens they spell

`Spells` says that a text has certain tokens wherever it stands in a query. The laws below put one piece in front of
a text whose tokens are known: a separator, punctuation, a name, a number or a literal. A piece that could go on,
such as a name, needs a text behind it that does not continue it.
-/

namespace ElementLocator.XPath

/-- From any place in a query, the text has these tokens. -/
def Spells (cs : List Char) (toks : List Token) : Prop :=
  ∀ offset, ∃ placed, tokens offset cs = .ok placed ∧ placed.map Placed.token = toks

/-- A name that stands in front of the text ends there. -/
def NameEnds (rest : List Char) : Prop := ∀ c ∈ rest.head?, isNameChar c = false

/-- A name ends in front of a character that belongs to none. -/
theorem nameEnds_cons {c : Char} {rest : List Char} (hc : isNameChar c = false) : NameEnds (c :: rest) := by
  intro x hx
  cases hx
  exact hc

/-! ### Characters -/

/-- The letters of ASCII are letters. -/
theorem isLetter_of_isAlpha {c : Char} (h : c.isAlpha = true) : Text.isLetter c = true := by
  have hlt : c.toNat < 0x80 := by
    have hnumber := Text.toNat_of_isAlpha h
    omega
  rw [Text.isLetter, if_pos hlt, h]

/-- Plain characters belong into names. -/
theorem isNameChar_of_isPlainChar {c : Char} (h : Text.isPlainChar c = true) : isNameChar c = true := by
  simp only [Text.isPlainChar, Char.isAlphanum, Bool.or_eq_true, beq_iff_eq] at h
  rcases h with ((h | h) | h) | h
  · simp [isNameChar, Text.isLetterOrDigit_of_isLetter (isLetter_of_isAlpha h)]
  · have hlt : c.toNat < 0x80 := Nat.lt_of_le_of_lt (Text.toNat_of_isDigit h).2 (by decide)
    have hdigit : Text.isLetterOrDigit c = true := by
      rw [Text.isLetterOrDigit, if_pos hlt, Char.isAlphanum, h, Bool.or_true]
    simp [isNameChar, hdigit]
  · simp [isNameChar, h]
  · simp [isNameChar, h]

/-- The decimal digits of a number are digits. -/
theorem isDigit_toDigits {n : Nat} : ∀ c ∈ Nat.toDigits 10 n, c.isDigit = true := fun _ hc =>
  Nat.isDigit_of_mem_toDigits (by decide) (by decide) hc

/-- Plain characters are the spelling of a name. -/
theorem spelled_of_isPlainChars {cs : List Char} (h : Text.isPlainChars cs = true) :
    Spelled cs (.name (String.ofList cs)) := by
  obtain ⟨c, later, rfl, hc, hlater⟩ := Text.isPlainChars_iff.1 h
  have hstart : isNameStart c = true := by simp [isNameStart, isLetter_of_isAlpha hc]
  exact .name hstart (List.all_eq_true.2 fun x hx => isNameChar_of_isPlainChar (hlater x hx))

/-- Where a name ends, the token of the name is over. -/
theorem NameEnds.over {name : String} {spelling rest : List Char} (h : NameEnds rest) :
    Over (.name name) spelling rest := by
  intro c hc
  simp [GoesOn, h c hc]

/-- The token at the front, and the tokens behind it. -/
theorem tokens_of_lexeme {c : Char} {cs : List Char} {l : Lexeme} (hc : isSeparator c = false)
    (hl : lexeme c cs = .ok l) (offset : Nat) :
    tokens offset (c :: cs) = (tokens (offset + byteLength l.spelling) l.rest).map (⟨l.token, offset⟩ :: ·) := by
  rw [tokens, if_neg (by simp [hc])]
  split
  · next heq =>
    rw [hl] at heq
    cases heq
  · next heq =>
    rw [hl] at heq
    cases heq
    rfl

/-! ### Single tokens -/

namespace Spells

variable {c mark : Char} {cs rest : List Char} {toks : List Token}

/-- Nothing spells no tokens. -/
theorem nil : Spells [] [] := fun _ => ⟨[], by rw [tokens], rfl⟩

/-- A separator spells nothing. -/
theorem separator (hc : isSeparator c = true) (h : Spells rest toks) : Spells (c :: rest) toks := by
  intro offset
  obtain ⟨placed, hplaced, htoks⟩ := h (offset + c.utf8Size)
  refine ⟨placed, ?_, htoks⟩
  rw [tokens, if_pos hc]
  exact hplaced

/-- A space spells nothing. -/
theorem space (h : Spells rest toks) : Spells (' ' :: rest) toks := h.separator (by decide)

/-- A token at the front, and the tokens behind it. -/
theorem of_lexeme {t : Token} {spelling : List Char} (hc : isSeparator c = false)
    (hlexeme : lexeme c cs = .ok ⟨t, spelling, rest⟩) (h : Spells rest toks) : Spells (c :: cs) (t :: toks) := by
  intro offset
  obtain ⟨placed, hplaced, htoks⟩ := h (offset + byteLength spelling)
  refine ⟨⟨t, offset⟩ :: placed, ?_, by rw [List.map_cons, htoks]⟩
  rw [tokens_of_lexeme hc hlexeme, hplaced]
  rfl

/-- A spelling that is over at the front. -/
theorem spelled {t : Token} {spelling : List Char} (hspelled : Spelled spelling t) (hover : Over t spelling rest)
    (h : Spells rest toks) : Spells (spelling ++ rest) (t :: toks) := by
  obtain ⟨c, cs, rfl⟩ := List.exists_cons_of_ne_nil hspelled.ne_nil
  obtain ⟨hseparator, hlexeme⟩ := lexeme_of_spelled hspelled hover
  exact of_lexeme hseparator hlexeme h

/-- A punctuation mark spells its token. -/
theorem punctuation {t : Token} (hc : punctuation? c = some t) (h : Spells rest toks) :
    Spells (c :: rest) (t :: toks) := by
  obtain ⟨hspelled, hover⟩ := punctuation_sound hc
  exact spelled hspelled hover h

/-- One slash spells its token, unless another slash is behind it. -/
theorem slash (hc : c ≠ '/') (h : Spells (c :: rest) toks) : Spells ('/' :: c :: rest) (.slash :: toks) := by
  have hspelled : Spelled ['/'] .slash := .sign rfl
  have hover : Over .slash ['/'] (c :: rest) := over_cons.2 hc
  exact spelled hspelled hover h

/-- Two slashes spell one token. -/
theorem doubleSlash (h : Spells rest toks) : Spells ('/' :: '/' :: rest) (.doubleSlash :: toks) := by
  have hspelled : Spelled ['/', '/'] .doubleSlash := .sign rfl
  exact spelled hspelled (fun _ _ => id) h

/-- Two colons spell one token. -/
theorem colonColon (h : Spells rest toks) : Spells (':' :: ':' :: rest) (.colonColon :: toks) := by
  have hspelled : Spelled [':', ':'] .colonColon := .sign rfl
  exact spelled hspelled (fun _ _ => id) h

/-- A point in front of a slash. -/
theorem dot (h : Spells ('/' :: rest) toks) : Spells ('.' :: '/' :: rest) (.dot :: toks) := by
  have hspelled : Spelled ['.'] .dot := .sign rfl
  have hover : Over .dot ['.'] ('/' :: rest) := over_cons.2 (not_goesOn_slash (by decide))
  exact spelled hspelled hover h

/-- Plain characters spell a name, unless the name goes on. -/
theorem name (hcs : Text.isPlainChars cs = true) (hends : NameEnds rest) (h : Spells rest toks) :
    Spells (cs ++ rest) (.name (String.ofList cs) :: toks) :=
  spelled (spelled_of_isPlainChars hcs) hends.over h

/-- The digits of a number other than zero, in front of a bracket that closes. -/
theorem number {n : Nat} (hn : n ≠ 0) (h : Spells (']' :: rest) toks) :
    Spells (Nat.toDigits 10 n ++ ']' :: rest) (.number (Number.ofNat n) :: toks) := by
  have hvalue : decimalValue (Nat.toDigits 10 n) [] = Number.ofNat n := by
    rw [decimalValue, List.append_nil, Nat.ofDigitChars_ten_toDigits]
    simp [Number.ofDecimal, hn, Number.ofNat, Number.pow10]
  have hspelled := Spelled.whole (@Nat.toDigits_ne_nil n 10) (List.all_eq_true.2 isDigit_toDigits)
  rw [hvalue] at hspelled
  have hbracket : ¬ GoesOn (.number (Number.ofNat n)) (Nat.toDigits 10 n) ']' := by
    have hdigit : ']'.isDigit = false := rfl
    simp [GoesOn, hdigit]
  exact spelled hspelled (over_cons.2 hbracket) h

/-- A text without the mark, between two marks. -/
theorem literal (hmark : mark = '\'' ∨ mark = '"') (hcs : mark ∉ cs) (h : Spells rest toks) :
    Spells (enclose mark cs ++ rest) (.literal (String.ofList cs) :: toks) :=
  spelled (.literal hmark hcs) (fun _ _ => id) h

end Spells

end ElementLocator.XPath
