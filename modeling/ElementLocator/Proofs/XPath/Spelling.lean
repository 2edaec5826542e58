import ElementLocator.Proofs.Text.PlainName
import ElementLocator.XPath.Token.Lexer
import Mathlib

/-!
# How tokens are spelled

`Spelled` says which characters spell a token, whatever stands around them. Several spellings can stand at the front of
a text; the one that is read is the one that the character behind it does not go on with, and that is the longest.
-/

namespace ElementLocator.XPath

variable {c : Char} {cs rest spelling : List Char} {t : Token} {l : Lexeme}

/-- The only spelling of a token, unless the spelling says more than which kind of token it is. -/
def Token.sign? : Token → Option (List Char)
  | .slash => some ['/']
  | .doubleSlash => some ['/', '/']
  | .leftBracket => some ['[']
  | .rightBracket => some [']']
  | .leftParen => some ['(']
  | .rightParen => some [')']
  | .at => some ['@']
  | .comma => some [',']
  | .dot => some ['.']
  | .dotDot => some ['.', '.']
  | .star => some ['*']
  | .equals => some ['=']
  | .notEquals => some ['!', '=']
  | .colonColon => some [':', ':']
  | .literal _ | .number _ | .name _ => none

/-- The double nearest to the decimal number with these digits before and behind the point. -/
def decimalValue (whole fraction : List Char) : Number :=
  Number.ofDecimal false (Nat.ofDigitChars 10 (whole ++ fraction) 0) (-(fraction.length : Int))

/-- The characters spell the token. A literal stands between two equal marks and is what stands between them. A number
has at least one digit and at most one point, anywhere among the digits. -/
inductive Spelled : List Char → Token → Prop
  | sign {t : Token} {cs : List Char} : t.sign? = some cs → Spelled cs t
  | literal {mark : Char} {text : List Char} : mark = '\'' ∨ mark = '"' → mark ∉ text →
      Spelled (mark :: (text ++ [mark])) (.literal (String.ofList text))
  | whole {digits : List Char} : digits ≠ [] → digits.all Char.isDigit = true →
      Spelled digits (.number (decimalValue digits []))
  | decimal {whole fraction : List Char} : whole ≠ [] ∨ fraction ≠ [] → whole.all Char.isDigit = true →
      fraction.all Char.isDigit = true → Spelled (whole ++ '.' :: fraction) (.number (decimalValue whole fraction))
  | name {c : Char} {cs : List Char} : isNameStart c = true → cs.all isNameChar = true →
      Spelled (c :: cs) (.name (String.ofList (c :: cs)))

/-- The character goes on with the token that is spelled in front of it. A number takes in points, unless a point is
what it starts with. -/
def GoesOn (t : Token) (spelling : List Char) (c : Char) : Prop :=
  match t with
  | .slash => c = '/'
  | .dot => c = '.' ∨ c.isDigit = true
  | .number _ => c.isDigit = true ∨ c = '.' ∧ spelling.head? ≠ some '.'
  | .name _ => isNameChar c = true
  | _ => False

/-- The token is over: nothing stands behind it, or a character that does not go on with it. -/
def Over (t : Token) (spelling rest : List Char) : Prop := ∀ c ∈ rest.head?, ¬ GoesOn t spelling c

/-- Every token is over at the end of the text. -/
theorem over_nil : Over t spelling [] := by
  intro c hc
  cases hc

/-- A token is over in front of a character that does not go on with it. -/
theorem over_cons : Over t spelling (c :: rest) ↔ ¬ GoesOn t spelling c := by simp [Over]

/-- A separator goes on with no token. -/
theorem not_goesOn_of_isSeparator (h : isSeparator c = true) : ¬ GoesOn t spelling c := by
  have hc : c = ' ' ∨ c = '\t' ∨ c = '\n' ∨ c = '\r' := by simpa [isSeparator, or_assoc] using h
  have hname : isNameChar c = false := by rcases hc with rfl | rfl | rfl | rfl <;> decide
  have hdigit : c.isDigit = false := by rcases hc with rfl | rfl | rfl | rfl <;> decide
  have hslash : c ≠ '/' := Text.ne_of_kind h (by decide)
  have hpoint : c ≠ '.' := Text.ne_of_kind h (by decide)
  cases t <;> simp [GoesOn, hname, hdigit, hslash, hpoint]

/-- A slash goes on with a slash alone. -/
theorem not_goesOn_slash (h : t ≠ .slash) : ¬ GoesOn t spelling '/' := by
  have hname : isNameChar '/' = false := by decide
  have hdigit : '/'.isDigit = false := by decide
  cases t <;> simp_all [GoesOn]

/-! ### Characters -/

/-- Digits may stand in numbers. -/
theorem isNumberChar_of_isDigit (h : c.isDigit = true) : isNumberChar c = true := by simp [isNumberChar, h]

/-- What starts a name is not a digit. -/
theorem isDigit_of_isNameStart (h : isNameStart c = true) : c.isDigit = false := by
  rw [Bool.eq_false_iff]
  intro hdigit
  have hascii : c.toNat < 0x80 := Nat.lt_of_le_of_lt (Text.toNat_of_isDigit hdigit).2 (by decide)
  have hunderscore : c ≠ '_' := Text.ne_of_kind hdigit (by decide)
  have halpha : c.isAlpha = true := by simpa [isNameStart, Text.isLetter, hascii, hunderscore] using h
  rw [Text.isDigit_of_isAlpha halpha] at hdigit
  cases hdigit

/-- A digit or the start of a name is neither a separator nor the start of another token. -/
theorem lexeme_of_startsWord (h : (c.isDigit || isNameStart c) = true) (rest : List Char) :
    isSeparator c = false ∧ lexeme c rest = if c.isDigit then numberLexeme c rest else .ok (nameLexeme c rest) := by
  have hne : ∀ x : Char, (x.isDigit || isNameStart x) = false → c ≠ x := fun x =>
    Text.ne_of_kind (p := fun c => c.isDigit || isNameStart c) h
  have hpunctuation : punctuation? c = none := by
    unfold punctuation?
    split <;> first | rfl | (exact absurd rfl (hne _ (by decide)))
  refine ⟨?_, ?_⟩
  · simp [isSeparator, hne ' ' (by decide), hne '\t' (by decide), hne '\n' (by decide), hne '\r' (by decide)]
  · have hlexeme : lexeme c rest = if c.isDigit then numberLexeme c rest
        else if isNameStart c then .ok (nameLexeme c rest) else .error (.strayCharacter c) := by
      simp [lexeme, hpunctuation, hne '/' (by decide), hne '!' (by decide), hne ':' (by decide), hne '\'' (by decide),
        hne '"' (by decide), hne '.' (by decide)]
    rw [hlexeme]
    cases hdigit : c.isDigit with
    | true => rfl
    | false =>
      rw [hdigit, Bool.false_or] at h
      rw [h]
      rfl

/-- A run of characters ends where a text starts that does not continue it. -/
theorem takeWhile_run {p : Char → Bool} (hcs : ∀ c ∈ cs, p c = true) (hrest : ∀ c ∈ rest.head?, p c = false) :
    (cs ++ rest).takeWhile p = cs := by
  rw [List.takeWhile_append_of_pos hcs]
  cases rest with
  | nil => simp
  | cons c rest => rw [List.takeWhile_cons_of_neg (by simp [hrest c rfl]), List.append_nil]

/-- A run of one kind is dropped up to where it ends. -/
theorem dropWhile_run {p : Char → Bool} (hcs : ∀ c ∈ cs, p c = true) (hrest : ∀ c ∈ rest.head?, p c = false) :
    (cs ++ rest).dropWhile p = rest := by
  rw [List.dropWhile_append_of_pos hcs]
  cases rest with
  | nil => rfl
  | cons c rest => rw [List.dropWhile_cons_of_neg (by simp [hrest c rfl])]

/-- What stands behind a run of characters does not continue it. -/
theorem not_of_head?_dropWhile {p : Char → Bool} (h : c ∈ (cs.dropWhile p).head?) : p c = false := by
  have hhead := List.head?_dropWhile_not p cs
  rw [Option.mem_def.1 h] at hhead
  simpa using hhead

/-! ### Numbers -/

/-- Digits with a point among them denote their decimal value. -/
theorem magnitude?_decimal {whole fraction : List Char} (hne : whole ≠ [] ∨ fraction ≠ [])
    (hwhole : whole.all Char.isDigit = true) (hfraction : fraction.all Char.isDigit = true) :
    Number.magnitude? false (whole ++ '.' :: fraction) = some (decimalValue whole fraction) := by
  have hpoint : ∀ x ∈ ('.' :: fraction).head?, x.isDigit = false := by
    intro x hx
    cases hx
    rfl
  have hrun : Number.digitRun (whole ++ '.' :: fraction) = (whole, '.' :: fraction) := by
    rw [Number.digitRun, takeWhile_run (List.all_eq_true.1 hwhole) hpoint,
      dropWhile_run (List.all_eq_true.1 hwhole) hpoint]
  have hempty : (whole.isEmpty && fraction.isEmpty) = false := by
    rw [Bool.and_eq_false_iff, List.isEmpty_eq_false_iff, List.isEmpty_eq_false_iff]
    exact hne
  simp [Number.magnitude?, hrun, Number.digitRun_of_all hfraction, hempty, Number.exponentOf?, decimalValue]

/-- The characters of a plain number spell no exponent but the absent one. -/
theorem exponentOf?_of_isNumberChar {e : Int} (hcs : cs.all isNumberChar = true)
    (h : Number.exponentOf? cs = some e) : cs = [] ∧ e = 0 := by
  cases cs with
  | nil =>
    cases h
    exact ⟨rfl, rfl⟩
  | cons c rest =>
    have hc : isNumberChar c = true := List.all_eq_true.1 hcs c List.mem_cons_self
    have hlower : c ≠ 'e' := Text.ne_of_kind hc (by decide)
    have hupper : c ≠ 'E' := Text.ne_of_kind hc (by decide)
    simp [Number.exponentOf?, hlower, hupper] at h

/-- Behind the first point of a number there are only digits. -/
theorem spelled_of_magnitude?_point {value : Number} {later : List Char} (hcs : cs.all isNumberChar = true)
    (hrest : cs.dropWhile Char.isDigit = '.' :: later) (h : Number.magnitude? false cs = some value) :
    Spelled cs (.number value) := by
  have hsplit := List.takeWhile_append_dropWhile (p := Char.isDigit) (l := cs)
  have hwhole : (cs.takeWhile Char.isDigit).all Char.isDigit = true := List.all_takeWhile
  unfold Number.magnitude? Number.digitRun at h
  simp only [hrest] at h
  split at h
  · cases h
  · next hne =>
    obtain ⟨e, he, rfl⟩ := Option.map_eq_some_iff.1 h
    have hbehind : (later.dropWhile Char.isDigit).all isNumberChar = true := by
      rw [List.all_eq_true]
      intro x hx
      refine List.all_eq_true.1 hcs x ?_
      rw [← hsplit, hrest]
      simp [(List.dropWhile_suffix Char.isDigit).mem hx]
    obtain ⟨hnil, rfl⟩ := exponentOf?_of_isNumberChar hbehind he
    have hlater := List.takeWhile_append_dropWhile (p := Char.isDigit) (l := later)
    rw [hnil, List.append_nil] at hlater
    rw [hlater] at hne ⊢
    have hfraction : later.all Char.isDigit = true := by
      rw [← hlater]
      exact List.all_takeWhile
    have hdigits : cs.takeWhile Char.isDigit ≠ [] ∨ later ≠ [] := by
      rw [← List.isEmpty_eq_false_iff, ← List.isEmpty_eq_false_iff, ← Bool.and_eq_false_iff]
      exact Bool.not_eq_true _ ▸ hne
    rw [hrest] at hsplit
    simpa [decimalValue, hsplit] using Spelled.decimal hdigits hwhole hfraction

/-- What is written with digits and points and denotes a number has at most one point. -/
theorem spelled_of_magnitude? {value : Number} (hcs : cs.all isNumberChar = true)
    (h : Number.magnitude? false cs = some value) : Spelled cs (.number value) := by
  cases hrest : cs.dropWhile Char.isDigit with
  | nil =>
    have hdigits : cs.all Char.isDigit = true := List.all_eq_true.2 (List.dropWhile_eq_nil_iff.1 hrest)
    have hne : cs ≠ [] := by
      rintro rfl
      cases h
    rw [Number.magnitude?_digits hne hdigits] at h
    cases h
    simpa [decimalValue] using Spelled.whole hne hdigits
  | cons d later =>
    have hhead : d ∈ (cs.dropWhile Char.isDigit).head? := by
      rw [hrest]
      rfl
    have hmem : d ∈ cs := (List.dropWhile_suffix Char.isDigit).mem (List.mem_of_mem_head? hhead)
    have hpoint : d = '.' := by
      simpa [isNumberChar, not_of_head?_dropWhile hhead] using List.all_eq_true.1 hcs d hmem
    exact spelled_of_magnitude?_point hcs (hpoint ▸ hrest) h

/-! ### One token -/

/-- A point alone, in front of neither a point nor a digit. -/
theorem pointLexeme_of_over (h : Over .dot ['.'] rest) : pointLexeme rest = ⟨.dot, ['.'], rest⟩ := by
  cases rest with
  | nil => rfl
  | cons d later =>
    obtain ⟨hpoint, hdigit⟩ := not_or.1 (over_cons.1 h)
    unfold pointLexeme
    split
    · next heq => exact absurd (List.cons.inj heq).1 hpoint
    · simp [hdigit]

/-- A point in front of digits. -/
theorem pointLexeme_of_digits {fraction : List Char} (hne : fraction ≠ []) (hdigits : fraction.all Char.isDigit = true)
    (hrest : ∀ x ∈ rest.head?, x.isDigit = false) :
    pointLexeme (fraction ++ rest) = ⟨.number (decimalValue [] fraction), '.' :: fraction, rest⟩ := by
  have hpoint : ∀ later, fraction ++ rest ≠ '.' :: later := by
    intro later heq
    obtain ⟨d, fraction, rfl⟩ := List.exists_cons_of_ne_nil hne
    cases heq
    cases hdigits
  unfold pointLexeme
  split
  · next heq => exact absurd heq (hpoint _)
  · rw [takeWhile_run (List.all_eq_true.1 hdigits) hrest, dropWhile_run (List.all_eq_true.1 hdigits) hrest]
    simp [hne, decimalValue]

/-- A number that starts with a digit. -/
theorem lexeme_of_magnitude? {value : Number} (hc : c.isDigit = true) (hcs : cs.all isNumberChar = true)
    (hvalue : Number.magnitude? false (c :: cs) = some value) (hrest : ∀ x ∈ rest.head?, isNumberChar x = false) :
    isSeparator c = false ∧ lexeme c (cs ++ rest) = .ok ⟨.number value, c :: cs, rest⟩ := by
  obtain ⟨hseparator, hlexeme⟩ := lexeme_of_startsWord (c := c) (by rw [hc, Bool.true_or]) (cs ++ rest)
  rw [if_pos hc, numberLexeme, takeWhile_run (List.all_eq_true.1 hcs) hrest,
    dropWhile_run (List.all_eq_true.1 hcs) hrest] at hlexeme
  rw [hvalue] at hlexeme
  exact ⟨hseparator, hlexeme⟩

/-- A slash is alone in front of a text that does not start with a second one. -/
theorem lexeme_slash (hc : c ≠ '/') (rest : List Char) : lexeme '/' (c :: rest) = .ok ⟨.slash, ['/'], c :: rest⟩ := by
  have hpunctuation : punctuation? '/' = none := rfl
  unfold lexeme
  rw [hpunctuation]
  dsimp only
  rw [if_pos rfl]
  split
  · next heq => exact absurd (List.cons.inj heq).1 hc
  · rfl

/-- A sign is cut off as its token, unless it goes on. -/
theorem lexeme_of_sign (h : t.sign? = some (c :: cs)) (hover : Over t (c :: cs) rest) :
    isSeparator c = false ∧ lexeme c (cs ++ rest) = .ok ⟨t, c :: cs, rest⟩ := by
  cases t <;> cases h
  case slash =>
    refine ⟨rfl, ?_⟩
    cases rest with
    | nil => rfl
    | cons d later => exact lexeme_slash (over_cons.1 hover) later
  case dot =>
    have hlexeme : lexeme '.' rest = .ok (pointLexeme rest) := rfl
    exact ⟨rfl, by rw [List.nil_append, hlexeme, pointLexeme_of_over hover]⟩
  all_goals exact ⟨rfl, rfl⟩

/-- A number that starts with a digit is over where neither a digit nor a point follows. -/
theorem over_number_iff {value : Number} (hc : c.isDigit = true) :
    Over (.number value) (c :: cs) rest ↔ ∀ x ∈ rest.head?, isNumberChar x = false := by
  have hpoint : c ≠ '.' := Text.ne_of_kind hc rfl
  simp [Over, GoesOn, isNumberChar, hpoint]

/-- A number that starts with a point is over where no digit follows. -/
theorem over_fraction_iff {value : Number} :
    Over (.number value) ('.' :: cs) rest ↔ ∀ x ∈ rest.head?, x.isDigit = false := by
  simp [Over, GoesOn]

/-- A literal is cut off as its text, whichever quotation mark it has. -/
theorem lexeme_of_literal {mark : Char} {text : List Char} (hmark : mark = '\'' ∨ mark = '"') (htext : mark ∉ text)
    (rest : List Char) : isSeparator mark = false ∧ lexeme mark (text ++ [mark] ++ rest) =
      .ok ⟨.literal (String.ofList text), mark :: (text ++ [mark]), rest⟩ := by
  have hseparator : isSeparator mark = false := by rcases hmark with rfl | rfl <;> rfl
  have hlexeme : lexeme mark (text ++ mark :: rest) = literalLexeme mark (text ++ mark :: rest) := by
    rcases hmark with rfl | rfl <;> rfl
  rw [literalLexeme, Text.cutAtFirst_of_not_mem htext] at hlexeme
  exact ⟨hseparator, by rw [List.append_assoc, List.singleton_append, hlexeme]⟩

/-- A number with a point among its digits, or in front of them. -/
theorem lexeme_of_decimal {whole fraction : List Char} (hne : whole ≠ [] ∨ fraction ≠ [])
    (hwhole : whole.all Char.isDigit = true) (hfraction : fraction.all Char.isDigit = true)
    (hspelling : c :: cs = whole ++ '.' :: fraction)
    (hover : Over (.number (decimalValue whole fraction)) (c :: cs) rest) :
    isSeparator c = false ∧
      lexeme c (cs ++ rest) = .ok ⟨.number (decimalValue whole fraction), c :: cs, rest⟩ := by
  cases whole with
  | nil =>
    obtain ⟨rfl, rfl⟩ := List.cons.inj hspelling
    have hpoint := pointLexeme_of_digits (hne.resolve_left fun h => h rfl) hfraction (over_fraction_iff.1 hover)
    have hlexeme : lexeme '.' (cs ++ rest) = .ok (pointLexeme (cs ++ rest)) := rfl
    exact ⟨rfl, by rw [hlexeme, hpoint]⟩
  | cons d whole =>
    obtain ⟨rfl, rfl⟩ := List.cons.inj hspelling
    have hc : c.isDigit = true := List.all_eq_true.1 hwhole c List.mem_cons_self
    have hcs : (whole ++ '.' :: fraction).all isNumberChar = true := by
      rw [List.all_eq_true]
      intro x hx
      rcases List.mem_append.1 hx with hx | hx
      · exact isNumberChar_of_isDigit (List.all_eq_true.1 hwhole x (List.mem_cons_of_mem c hx))
      rcases List.mem_cons.1 hx with rfl | hx
      · rfl
      · exact isNumberChar_of_isDigit (List.all_eq_true.1 hfraction x hx)
    exact lexeme_of_magnitude? hc hcs (magnitude?_decimal hne hwhole hfraction) ((over_number_iff hc).1 hover)

/-- A name is cut off where it ends. -/
theorem lexeme_of_name (hc : isNameStart c = true) (hcs : cs.all isNameChar = true)
    (hrest : ∀ x ∈ rest.head?, isNameChar x = false) : isSeparator c = false ∧
      lexeme c (cs ++ rest) = .ok ⟨.name (String.ofList (c :: cs)), c :: cs, rest⟩ := by
  obtain ⟨hseparator, hlexeme⟩ := lexeme_of_startsWord (c := c) (by rw [hc, Bool.or_true]) (cs ++ rest)
  rw [isDigit_of_isNameStart hc, if_neg Bool.false_ne_true, nameLexeme, takeWhile_run (List.all_eq_true.1 hcs) hrest,
    dropWhile_run (List.all_eq_true.1 hcs) hrest] at hlexeme
  exact ⟨hseparator, hlexeme⟩

/-- A spelling is read for what it spells in front of any text that does not go on with it. -/
theorem lexeme_of_spelled (h : Spelled (c :: cs) t) (hover : Over t (c :: cs) rest) :
    isSeparator c = false ∧ lexeme c (cs ++ rest) = .ok ⟨t, c :: cs, rest⟩ := by
  generalize hspelling : c :: cs = spelling at h hover
  cases h with
  | sign hsign =>
    subst hspelling
    exact lexeme_of_sign hsign hover
  | literal hmark htext =>
    obtain ⟨rfl, rfl⟩ := List.cons.inj hspelling
    exact lexeme_of_literal hmark htext rest
  | whole hne hdigits =>
    subst hspelling
    have hc : c.isDigit = true := List.all_eq_true.1 hdigits c List.mem_cons_self
    have hcs : cs.all isNumberChar = true := List.all_eq_true.2 fun x hx =>
      isNumberChar_of_isDigit (List.all_eq_true.1 hdigits x (List.mem_cons_of_mem c hx))
    have hvalue : Number.magnitude? false (c :: cs) = some (decimalValue (c :: cs) []) := by
      rw [Number.magnitude?_digits hne hdigits]
      simp [decimalValue]
    exact lexeme_of_magnitude? hc hcs hvalue ((over_number_iff hc).1 hover)
  | decimal hne hwhole hfraction =>
    rw [← hspelling] at hover ⊢
    exact lexeme_of_decimal hne hwhole hfraction hspelling hover
  | name hc hcs =>
    obtain ⟨rfl, rfl⟩ := List.cons.inj hspelling
    exact lexeme_of_name hc hcs fun x hx => Bool.not_eq_true _ ▸ hover x hx

/-- A text that is cut at a mark does not have the mark in its first part. -/
theorem not_mem_of_cutAtFirst {mark : Char} {before after : List Char}
    (h : Text.cutAtFirst mark cs = some (before, after)) : mark ∉ before := by
  induction cs generalizing before with
  | nil => cases h
  | cons c cs ih =>
    simp only [Text.cutAtFirst] at h
    split at h
    · cases h
      exact List.not_mem_nil
    · next hc =>
      obtain ⟨cut, hcut, heq⟩ := Option.map_eq_some_iff.1 h
      cases heq
      exact List.not_mem_cons_of_ne_of_not_mem (Ne.symm hc) (ih hcut)

/-- The token of a lexeme is spelled in its characters and is over where the text goes on. -/
def Lexeme.Sound (l : Lexeme) : Prop := Spelled l.spelling l.token ∧ Over l.token l.spelling l.rest

/-- A punctuation mark is a sound lexeme. -/
theorem punctuation_sound (h : punctuation? c = some t) : (Lexeme.mk t [c] rest).Sound := by
  unfold punctuation? at h
  split at h <;> cases h <;> exact ⟨.sign rfl, fun _ _ => id⟩

/-- A literal that is cut off is a sound lexeme. -/
theorem literalLexeme_sound {mark : Char} (hmark : mark = '\'' ∨ mark = '"') (h : literalLexeme mark cs = .ok l) :
    l.Sound := by
  unfold literalLexeme at h
  split at h
  · cases h
  · next hcut =>
    cases h
    exact ⟨.literal hmark (not_mem_of_cutAtFirst hcut), fun _ _ => id⟩

/-- What starts with a point is a sound lexeme. -/
theorem pointLexeme_sound (rest : List Char) : (pointLexeme rest).Sound := by
  unfold pointLexeme
  split
  · exact ⟨.sign rfl, fun _ _ => id⟩
  · next hpoint =>
    dsimp only
    split
    · next hdigits =>
      refine ⟨.sign rfl, ?_⟩
      intro x hx
      obtain ⟨later, rfl⟩ := List.head?_eq_some_iff.1 hx
      rw [List.isEmpty_iff, List.takeWhile_eq_nil_iff] at hdigits
      rintro (rfl | hdigit)
      · exact hpoint later rfl
      · exact hdigits (by simp) hdigit
    · next hdigits =>
      rw [Bool.not_eq_true, List.isEmpty_eq_false_iff] at hdigits
      refine ⟨@Spelled.decimal [] _ (.inr hdigits) rfl List.all_takeWhile, ?_⟩
      exact over_fraction_iff.2 fun x hx => not_of_head?_dropWhile hx

/-- A number that is cut off is a sound lexeme. -/
theorem numberLexeme_sound (hc : c.isDigit = true) (h : numberLexeme c rest = .ok l) : l.Sound := by
  unfold numberLexeme at h
  dsimp only at h
  split at h
  · cases h
  · next hvalue =>
    cases h
    have hall : (c :: rest.takeWhile isNumberChar).all isNumberChar = true := by
      rw [List.all_cons, isNumberChar_of_isDigit hc, List.all_takeWhile, Bool.and_true]
    exact ⟨spelled_of_magnitude? hall hvalue, (over_number_iff hc).2 fun x hx => not_of_head?_dropWhile hx⟩

/-- A name that is cut off is a sound lexeme. -/
theorem nameLexeme_sound (hc : isNameStart c = true) (rest : List Char) : (nameLexeme c rest).Sound := by
  refine ⟨.name hc List.all_takeWhile, ?_⟩
  intro x hx
  have hends : isNameChar x = false := not_of_head?_dropWhile hx
  simp [nameLexeme, GoesOn, hends]

/-- What is read as a token is spelled in its characters, and nothing goes on with it. -/
theorem lexeme_sound (h : lexeme c rest = .ok l) : l.Sound := by
  unfold lexeme at h
  split at h
  · next hc =>
    cases h
    exact punctuation_sound hc
  split_ifs at h with hslash hexclamation hcolon hmark hpoint hdigit hname
  · subst hslash
    split at h
    · cases h
      exact ⟨.sign rfl, fun _ _ => id⟩
    · next hdouble =>
      cases h
      refine ⟨.sign rfl, ?_⟩
      intro x hx hgoes
      obtain ⟨later, rfl⟩ := List.head?_eq_some_iff.1 hx
      exact hdouble later (by rw [show x = '/' from hgoes])
  · subst hexclamation
    split at h <;> cases h
    exact ⟨.sign rfl, fun _ _ => id⟩
  · subst hcolon
    split at h <;> cases h
    exact ⟨.sign rfl, fun _ _ => id⟩
  · exact literalLexeme_sound (by simpa using hmark) h
  · cases h
    exact pointLexeme_sound rest
  · exact numberLexeme_sound hdigit h
  · cases h
    exact nameLexeme_sound hname rest

/-! ### Spellings -/

/-- No token is spelled by nothing. -/
theorem Spelled.ne_nil (h : Spelled spelling t) : spelling ≠ [] := by
  cases h with
  | sign hsign =>
    rintro rfl
    cases t <;> cases hsign
  | literal | name => exact List.cons_ne_nil _ _
  | whole hne => exact hne
  | decimal => simp

/-- A token that has only one spelling is spelled in it. -/
theorem Spelled.eq_sign (h : Spelled spelling t) (hsign : t.sign? = some cs) : spelling = cs := by
  cases h with
  | sign hspelling => exact Option.some.inj (hspelling.symm.trans hsign)
  | literal | whole | decimal | name => cases hsign

/-- A spelling spells one token. -/
theorem Spelled.unique {u : Token} (h : Spelled spelling t) (hother : Spelled spelling u) : t = u := by
  obtain ⟨c, cs, rfl⟩ := List.exists_cons_of_ne_nil h.ne_nil
  have hread := (lexeme_of_spelled h over_nil).2
  rw [(lexeme_of_spelled hother over_nil).2] at hread
  cases hread
  rfl

/-- Where nothing goes on with a token, no longer spelling stands. -/
theorem Spelled.length_le {u : Token} {longer : List Char} (h : Spelled spelling t) (hover : Over t spelling rest)
    (hother : Spelled longer u) (hfront : longer <+: spelling ++ rest) : longer.length ≤ spelling.length := by
  by_contra hlength
  obtain ⟨more, rfl⟩ := List.prefix_of_prefix_length_le (List.prefix_append spelling rest) hfront (by omega)
  cases more with
  | nil => simp at hlength
  | cons d more =>
    have hhead : Over t spelling (d :: more) := by
      obtain ⟨behind, rfl⟩ := (List.prefix_append_right_inj spelling).1 hfront
      exact over_cons.2 (over_cons.1 hover)
    obtain ⟨c, cs, rfl⟩ := List.exists_cons_of_ne_nil h.ne_nil
    have hread := (lexeme_of_spelled h hhead).2
    rw [List.cons_append] at hother
    have hwhole := (lexeme_of_spelled hother over_nil).2
    rw [List.append_nil, hread] at hwhole
    exact List.cons_ne_nil d more (congrArg Lexeme.rest (Except.ok.inj hwhole))

end ElementLocator.XPath
