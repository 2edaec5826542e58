import ElementLocator.Css.Token.Lexer
import ElementLocator.Proofs.Css.Escape

/-!
# The tokens of written selectors

One law for each piece of a written selector: what tokens it puts in front of the tokens of the text behind it.
-/

namespace ElementLocator.Css

variable {c : Char} {cs rest : List Char}

/-- An identifier that stands in front of the text ends there and is neither a function nor part of an arrow. -/
def IdentEnds (rest : List Char) : Prop := NameEnds rest ∧ ∀ c ∈ rest.head?, c ≠ '(' ∧ c ≠ '>'

/-- The token of the first lexeme comes first, and the text behind it is read next. -/
theorem tokens_of_lexeme {token : Token} {later : List Char} (h : lexeme c cs = (some token, later)) :
    tokens (c :: cs) = token :: tokens later := by
  rw [tokens, h]
  rfl

/-! ### Single characters -/

/-- A punctuation mark is a token by itself. -/
theorem tokens_punctuation {token : Token} (h : punctuation? c = some token) :
    tokens (c :: rest) = token :: tokens rest := by
  refine tokens_of_lexeme ?_
  have hspace : isCssSpace c = false := by
    unfold punctuation? at h
    split at h <;> first | rfl | cases h
  simp [lexeme, hspace, h]

/-- The character is neither white space nor punctuation, and starts neither a comment nor an operator. -/
structure StartsPlain (c : Char) : Prop where
  space : isCssSpace c = false
  punctuation : punctuation? c = none
  operator : operator? c = none
  slash : c ≠ '/'

/-- Letters, digits, hyphens and whatever else can start a name have a meaning of their own. -/
theorem startsPlain_of_ne
    (hne : ∀ x : Char, isNameStart x = false → x.isDigit = false → x ≠ '-' → x ≠ '\\' → c ≠ x) : StartsPlain c where
  space := by
    simp only [isCssSpace, Text.isSpace, Bool.or_eq_false_iff, beq_eq_false_iff_ne]
    refine ⟨⟨⟨⟨?_, ?_⟩, ?_⟩, ?_⟩, ?_⟩ <;> exact hne _ (by decide) (by decide) (by decide) (by decide)
  punctuation := by
    unfold punctuation?
    split <;> first | rfl | exact absurd rfl (hne _ (by decide) (by decide) (by decide) (by decide))
  operator := by
    unfold operator?
    split <;> first | rfl | exact absurd rfl (hne _ (by decide) (by decide) (by decide) (by decide))
  slash := hne _ (by decide) (by decide) (by decide) (by decide)

/-- A letter is no white space. -/
theorem isCssSpace_of_isAlpha (h : c.isAlpha = true) : isCssSpace c = false := by
  have hstarts : StartsPlain c := startsPlain_of_ne fun x hx _ _ _ =>
    Text.ne_of_kind (show isNameStart c = true by simp [isNameStart, h]) hx
  exact hstarts.space

/-- A character that is neither white space nor punctuation starts the token that its text says. -/
theorem tokens_of_plainToken {token : Token} {later : List Char} (hc : StartsPlain c)
    (h : plainToken c cs = (token, later)) : tokens (c :: cs) = token :: tokens later := by
  refine tokens_of_lexeme ?_
  simp [lexeme, hc.space, hc.punctuation, hc.operator, hc.slash, h]

/-- A space in front of something else. -/
theorem tokens_space (hc : isCssSpace c = false) :
    tokens (' ' :: c :: rest) = .whiteSpace " " :: tokens (c :: rest) := by
  refine tokens_of_lexeme ?_
  have hspace : isCssSpace ' ' = true := by decide
  simp [lexeme, hspace, hc]

/-- An equals sign stands for itself. -/
theorem tokens_equals : tokens ('=' :: rest) = .delim '=' :: tokens rest := tokens_of_lexeme rfl

/-! ### Identifiers -/

/-- The written form begins with a character that starts a name, or with an escape. -/
theorem writeStart_cases (hne : cs ≠ []) (hhyphen : cs.head? ≠ some '-') (rest : List Char) :
    ∃ c later, writeStart cs ++ rest = c :: later ∧
      (isNameStart c = true ∧ c ≠ '\x00' ∨ c = '\\' ∧ startsLine later = false) := by
  obtain ⟨x, more, rfl⟩ := List.exists_cons_of_ne_nil hne
  have hminus : x ≠ '-' := fun heq => hhyphen (by rw [heq]; rfl)
  rw [writeStart]
  split
  · next hdigit =>
    rw [List.append_assoc, numberEscape_append]
    exact ⟨'\\', _, rfl, .inr ⟨rfl, startsLine_toDigits _ (toNat_lt_of_isDigit hdigit).1⟩⟩
  · next hdigit =>
    rw [writeName, List.flatMap_cons, writeNameChar]
    split
    · next hname =>
      have hx : x ≠ '\x00' := by
        rintro rfl
        revert hname
        decide
      refine ⟨x, _, rfl, .inl ⟨?_, hx⟩⟩
      simp only [isNameChar, Char.isAlphanum, hdigit, Bool.or_false, Bool.or_eq_true, beq_iff_eq, hminus, or_false]
        at hname
      simpa [isNameStart, hx] using hname
    · next hname =>
      split
      · exact ⟨replacement, _, rfl, .inl (by decide)⟩
      split
      · next hcontrol =>
        rw [List.append_assoc, numberEscape_append]
        exact ⟨'\\', _, rfl, .inr ⟨rfl, startsLine_toDigits _ (toNat_lt_of_isControl hcontrol)⟩⟩
      · next hcontrol =>
        refine ⟨'\\', _, rfl, .inr ⟨rfl, ?_⟩⟩
        by_contra hline
        exact hcontrol (isControl_of_isNewline (by simpa [startsLine] using hline))

/-- No written name begins with the sign that would close an arrow. -/
theorem head_writeName (hrest : ∀ c ∈ rest.head?, c ≠ '>') : ∀ c ∈ (writeName cs ++ rest).head?, c ≠ '>' := by
  cases cs with
  | nil => exact hrest
  | cons x more =>
    rw [writeName, List.flatMap_cons, writeNameChar]
    split
    · next hname =>
      rintro c ⟨⟩ rfl
      revert hname
      decide
    split
    · intro c hc
      cases hc
      decide
    split
    · intro c hc
      cases hc
      decide
    · intro c hc
      cases hc
      decide

/-- How a written identifier begins: like a name, not like a number, and not like an arrow. -/
structure StartsIdent (c : Char) (later : List Char) : Prop where
  first : c = '-' ∨ c = '\\' ∨ isNameStart c = true ∧ c ≠ '\x00'
  name : startsName (c :: later) = true
  unsigned : startsSigned (c :: later) = false
  arrow : (c == '-' && ['-', '>'].isPrefixOf later) = false

/-- What starts a name is not a digit. -/
theorem not_isDigit_of_isNameStart (h : isNameStart c = true) : c.isDigit = false := by
  by_contra hdigit
  rw [Bool.not_eq_false] at hdigit
  obtain ⟨hlt, hnul⟩ := toNat_lt_of_isDigit hdigit
  simp only [isNameStart, Bool.or_eq_true, beq_iff_eq, decide_eq_true_eq] at h
  rcases h with ((h | rfl) | h) | h
  · rw [Text.isDigit_of_isAlpha h] at hdigit
    cases hdigit
  · revert hdigit
    decide
  · exact hnul h
  · omega

/-- In front of a character that starts a name, or of an escape, a hyphen does not sign a number. -/
theorem startsMagnitude_eq_false {later : List Char} (hc : isNameStart c = true ∨ c = '\\') :
    startsMagnitude (c :: later) = false ∧ c ≠ '.' := by
  have hpoint : c ≠ '.' := by
    rintro rfl
    rcases hc with hc | hc <;> revert hc <;> decide
  have hdigit : c.isDigit = false := by
    rcases hc with hc | rfl
    · exact not_isDigit_of_isNameStart hc
    · rfl
  refine ⟨?_, hpoint⟩
  unfold startsMagnitude
  split
  · next heq => exact absurd (List.cons.inj heq).1 hpoint
  · next heq =>
    cases heq
    exact hdigit
  · rfl

/-- Only a sign makes a signed number. -/
theorem startsSigned_eq_false {later : List Char} (hplus : c ≠ '+') (hminus : c ≠ '-') :
    startsSigned (c :: later) = false := by
  unfold startsSigned
  split
  · next heq => exact absurd (List.cons.inj heq).1 hplus
  · next heq => exact absurd (List.cons.inj heq).1 hminus
  · rfl

namespace StartsIdent

variable {later : List Char}

/-- A character that starts a name starts an identifier. -/
theorem of_isNameStart (hc : isNameStart c = true) (hnul : c ≠ '\x00') : StartsIdent c later := by
  have hplus : c ≠ '+' := Text.ne_of_kind hc (by decide)
  have hminus : c ≠ '-' := Text.ne_of_kind hc (by decide)
  exact ⟨.inr (.inr ⟨hc, hnul⟩), by simp [startsName, hc], startsSigned_eq_false hplus hminus, by simp [hminus]⟩

/-- So does an escape, unless a line end is behind the reverse solidus. -/
theorem of_escape (hline : startsLine later = false) : StartsIdent '\\' later :=
  ⟨.inr (.inl rfl), by simp [startsName, hline], rfl, rfl⟩

/-- A hyphen goes on with a character that starts a name, or with an escape. -/
theorem of_hyphen (hc : isNameStart c = true ∨ c = '\\') : StartsIdent '-' (c :: later) := by
  have hminus : c ≠ '-' := by
    rintro rfl
    rcases hc with hc | hc <;> revert hc <;> decide
  refine ⟨.inl rfl, ?_, (startsMagnitude_eq_false hc).1, by simp [List.isPrefixOf, hminus.symm]⟩
  rcases hc with hc | rfl
  · simp [startsName, hc]
  · rfl

/-- Two hyphens are the beginning of a name unless they are that of an arrow. -/
theorem of_hyphens (harrow : ∀ c ∈ later.head?, c ≠ '>') : StartsIdent '-' ('-' :: later) := by
  refine ⟨.inl rfl, rfl, rfl, ?_⟩
  change ['-', '>'].isPrefixOf ('-' :: later) = false
  cases later with
  | nil => rfl
  | cons x more =>
    have hx : x ≠ '>' := harrow x rfl
    simp [List.isPrefixOf, hx.symm]

/-- No identifier begins with a digit. -/
theorem isDigit_eq_false (h : StartsIdent c later) : c.isDigit = false := by
  rcases h.first with rfl | rfl | ⟨hname, -⟩
  · rfl
  · rfl
  · exact not_isDigit_of_isNameStart hname

end StartsIdent

/-- A text that cannot be cut behind a hyphen at its front does not begin with one. -/
theorem head?_ne_hyphen (h : ∀ later, cs = '-' :: later → False) : cs.head? ≠ some '-' := by
  intro hhead
  obtain ⟨later, rfl⟩ := List.head?_eq_some_iff.1 hhead
  exact h later rfl

/-- Whatever a written identifier begins with, an identifier starts there. The four cases are those of the writer: two
hyphens, one alone, one in front of a name, and none. -/
theorem writeIdentifier_starts (hne : cs ≠ []) (hrest : IdentEnds rest) :
    ∃ c later, writeIdentifier cs ++ rest = c :: later ∧ StartsIdent c later := by
  unfold writeIdentifier
  split
  · exact ⟨'-', _, rfl, .of_hyphens (head_writeName fun c hc => (hrest.2 c hc).2)⟩
  · exact ⟨'\\', _, rfl, .of_escape rfl⟩
  · next later hnotTwo hnotOne =>
    have hlater : later ≠ [] := fun hnil => hnotOne (by rw [hnil])
    have hhyphen : later.head? ≠ some '-' := head?_ne_hyphen fun more hmore => hnotTwo more (by rw [hmore])
    obtain ⟨x, more, hshape, hx⟩ := writeStart_cases hlater hhyphen rest
    rw [List.cons_append, hshape]
    exact ⟨'-', _, rfl, .of_hyphen (hx.imp And.left And.left)⟩
  · next hnotTwo hnotOne hnotHyphen =>
    obtain ⟨x, more, hshape, hx⟩ := writeStart_cases hne (head?_ne_hyphen hnotHyphen) rest
    refine ⟨x, more, hshape, ?_⟩
    rcases hx with ⟨hname, hnul⟩ | ⟨rfl, hline⟩
    · exact .of_isNameStart hname hnul
    · exact .of_escape hline

/-- A text that begins like an identifier has a name there, or a function. -/
theorem tokens_of_startsIdent {token : Token} {later : List Char} (h : StartsIdent c cs)
    (hident : identLike (c :: cs) = (token, later)) : tokens (c :: cs) = token :: tokens later := by
  have hne : ∀ x : Char, isNameStart x = false → x ≠ '-' → x ≠ '\\' → c ≠ x := by
    rintro x hx hhyphen hslash rfl
    rcases h.first with rfl | rfl | ⟨hname, -⟩
    · exact hhyphen rfl
    · exact hslash rfl
    · rw [hx] at hname
      cases hname
  have hdouble : c ≠ '"' := hne _ (by decide) (by decide) (by decide)
  have hsingle : c ≠ '\'' := hne _ (by decide) (by decide) (by decide)
  have hhash : c ≠ '#' := hne _ (by decide) (by decide) (by decide)
  have hless : c ≠ '<' := hne _ (by decide) (by decide) (by decide)
  have hat : c ≠ '@' := hne _ (by decide) (by decide) (by decide)
  have hmagnitude : startsMagnitude (c :: cs) = false := by
    rcases h.first with rfl | rfl | ⟨hname, -⟩
    · rfl
    · rfl
    · exact (startsMagnitude_eq_false (.inl hname)).1
  have harrow : (decide (c = '-') && ['-', '>'].isPrefixOf cs) = false := by
    simpa using h.arrow
  have hplain : plainToken c cs = identLike (c :: cs) := by
    simp only [plainToken, otherToken, hdouble, hsingle, hhash, hmagnitude, h.unsigned, harrow, hless, hat, h.name]
    simp
  exact tokens_of_plainToken (startsPlain_of_ne fun x hx _ => hne x hx) (hplain.trans hident)

/-- A written identifier is one token. -/
theorem tokens_writeIdentifier (hne : cs ≠ []) (hrest : IdentEnds rest) :
    tokens (writeIdentifier cs ++ rest) = .ident (String.ofList (readBack cs)) :: tokens rest := by
  obtain ⟨c, later, hshape, hstarts⟩ := writeIdentifier_starts hne hrest
  have hrun := nameRun_writeIdentifier cs hrest.1
  rw [hshape] at hrun ⊢
  refine tokens_of_startsIdent hstarts ?_
  rw [identLike, hrun]
  cases rest with
  | nil => rfl
  | cons x rest =>
    have hx : x ≠ '(' := (hrest.2 x rfl).1
    dsimp only
    split
    · next heq => exact absurd (List.cons.inj heq).1 hx
    · rfl

/-- A point in front of an identifier stands alone. -/
theorem tokens_class (hne : cs ≠ []) (hrest : IdentEnds rest) :
    tokens ('.' :: (writeIdentifier cs ++ rest)) =
      .delim '.' :: .ident (String.ofList (readBack cs)) :: tokens rest := by
  rw [← tokens_writeIdentifier hne hrest]
  obtain ⟨c, later, hshape, hstarts⟩ := writeIdentifier_starts hne hrest
  rw [hshape]
  have hother : otherToken '.' (c :: later) = (.delim '.', c :: later) := by
    have hmagnitude : startsMagnitude ('.' :: c :: later) = false := hstarts.isDigit_eq_false
    have hsigned : startsSigned ('.' :: c :: later) = false := rfl
    have hname : startsName ('.' :: c :: later) = false := rfl
    simp [otherToken, hmagnitude, hsigned, hname]
  exact tokens_of_plainToken ⟨by decide, rfl, rfl, by decide⟩ hother

/-- A hash sign in front of an identifier makes it the value of `id`. -/
theorem tokens_id (hne : cs ≠ []) (hrest : IdentEnds rest) :
    tokens ('#' :: (writeIdentifier cs ++ rest)) = .idHash (String.ofList (readBack cs)) :: tokens rest := by
  obtain ⟨c, later, hshape, hstarts⟩ := writeIdentifier_starts hne hrest
  have hrun := nameRun_writeIdentifier cs hrest.1
  have hname := hstarts.name
  rw [hshape] at hrun ⊢
  have hhash : hashToken (c :: later) = (.idHash (String.ofList (readBack cs)), rest) := by
    rw [hashToken, if_pos hname, hrun]
  exact tokens_of_plainToken ⟨by decide, rfl, rfl, by decide⟩ hhash

/-- A written string is one token. -/
theorem tokens_writeString (cs rest : List Char) :
    tokens (writeString cs ++ rest) = .quotedString (String.ofList (readBack cs)) :: tokens rest := by
  have hshape : writeString cs ++ rest = '\'' :: (cs.flatMap writeStringChar ++ '\'' :: rest) := by simp [writeString]
  rw [hshape]
  have hstring : stringToken '\'' (cs.flatMap writeStringChar ++ '\'' :: rest) =
      (.quotedString (String.ofList (readBack cs)), rest) := by
    rw [stringToken, stringRun_writeString]
    rfl
  exact tokens_of_plainToken ⟨by decide, rfl, rfl, by decide⟩ hstring

/-! ### Plain names and numbers -/

/-- Plain characters belong into names. -/
theorem isNameChar_of_isPlainChar (h : Text.isPlainChar c = true) : isNameChar c = true := by
  simp only [Text.isPlainChar, Bool.or_eq_true, beq_iff_eq] at h
  rcases h with (h | h) | h <;> simp [isNameChar, h]

/-- A plain name is written as it is. -/
theorem writeIdentifier_of_isPlainChars (h : Text.isPlainChars cs = true) : writeIdentifier cs = cs := by
  have hname : writeName cs = cs := by
    have hchars : ∀ c ∈ cs, isNameChar c = true := fun c hc =>
      isNameChar_of_isPlainChar (Text.isPlainChar_of_mem h hc)
    clear h
    induction cs with
    | nil => rfl
    | cons c cs ih =>
      rw [writeName, List.flatMap_cons, writeNameChar, if_pos (hchars c List.mem_cons_self), ← writeName,
        ih fun x hx => hchars x (List.mem_cons_of_mem c hx)]
      rfl
  obtain ⟨c, later, rfl, hc, -⟩ := Text.isPlainChars_iff.1 h
  have hhyphen : c ≠ '-' := Text.ne_of_kind hc (by decide)
  unfold writeIdentifier
  split
  · next heq => exact absurd (List.cons.inj heq).1 hhyphen
  · next heq => exact absurd (List.cons.inj heq).1 hhyphen
  · next heq => exact absurd (List.cons.inj heq).1 hhyphen
  · rw [writeStart, Text.isDigit_of_isAlpha hc]
    exact hname

/-- A plain name comes back as it is. -/
theorem readBack_of_isPlainChars (h : Text.isPlainChars cs = true) : readBack cs = cs :=
  readBack_of_not_mem fun hnul => Text.ne_of_kind (Text.isPlainChar_of_mem h hnul) (by decide) rfl

/-- A plain name in front of a parenthesis is a function, unless it is the one for addresses. -/
theorem tokens_function (h : Text.isPlainChars cs = true) (hurl : cs.map Char.toLower ≠ ['u', 'r', 'l']) :
    tokens (cs ++ '(' :: rest) = .function (String.ofList cs) :: tokens rest := by
  have hrun : nameRun (cs ++ '(' :: rest) = (cs, '(' :: rest) := by
    have hends : NameEnds ('(' :: rest) := by
      intro c hc
      cases hc
      decide
    have hwritten := nameRun_writeIdentifier cs hends
    rwa [writeIdentifier_of_isPlainChars h, readBack_of_isPlainChars h] at hwritten
  obtain ⟨c, later, rfl, hc, -⟩ := Text.isPlainChars_iff.1 h
  have hstart : isNameStart c = true := by simp [isNameStart, hc]
  have hstarts : StartsIdent c (later ++ '(' :: rest) := .of_isNameStart hstart (Text.ne_of_kind hc (by decide))
  have hident : identLike (c :: (later ++ '(' :: rest)) = (.function (String.ofList (c :: later)), rest) := by
    rw [identLike, show c :: (later ++ '(' :: rest) = c :: later ++ '(' :: rest from rfl, hrun]
    exact if_neg hurl
  exact tokens_of_startsIdent hstarts hident

/-- The number that digits write, as a token has it. -/
def numericOf (digits : List Char) : Numeric :=
  let written : WrittenNumber := ⟨false, false, digits, [], none⟩
  ⟨false, written.value.toFormat Number.single, written.integer⟩

/-- The digits of a number are read as an integer, which stops growing at the greatest one of 32 bits. -/
theorem integer_numericOf (n : Nat) :
    (numericOf (Nat.toDigits 10 n)).integer = some ((min 0x7FFFFFFF n : Nat) : Int) := by
  simp only [numericOf, WrittenNumber.integer, Nat.ofDigitChars_ten_toDigits]
  simp

/-- A digit starts a number, which has no sign. -/
theorem starts_of_isDigit {later : List Char} (hc : c.isDigit = true) :
    startsMagnitude (c :: later) = true ∧ startsSigned (c :: later) = false := by
  refine ⟨?_, startsSigned_eq_false (Text.ne_of_kind hc (by decide)) (Text.ne_of_kind hc (by decide))⟩
  unfold startsMagnitude
  split
  · next heq => exact absurd (List.cons.inj heq).1 (Text.ne_of_kind hc (by decide))
  · next heq =>
    cases heq
    exact hc
  · next heq => cases heq

/-- Digits in front of a parenthesis that closes are a number without a sign, a fraction, an exponent or a unit. -/
theorem numericToken_digits (hdigits : ∀ x ∈ c :: cs, x.isDigit = true) :
    numericToken (c :: (cs ++ ')' :: rest)) = (.number (numericOf (c :: cs)), ')' :: rest) := by
  have hrun : Number.digitRun (c :: cs ++ ')' :: rest) = (c :: cs, ')' :: rest) := by
    rw [Number.digitRun, List.takeWhile_append_of_pos hdigits, List.dropWhile_append_of_pos hdigits,
      List.takeWhile_cons_of_neg (by decide), List.dropWhile_cons_of_neg (by decide), List.append_nil]
  have hwritten : writtenNumber (c :: (cs ++ ')' :: rest)) = (⟨false, false, c :: cs, [], none⟩, ')' :: rest) := by
    have hfraction : fractionRun (')' :: rest) = ([], ')' :: rest) := rfl
    have hexponent : exponentRun (')' :: rest) = (none, ')' :: rest) := rfl
    rw [writtenNumber, (starts_of_isDigit (hdigits c List.mem_cons_self)).2]
    simp only [Bool.false_eq_true, if_false]
    rw [show c :: (cs ++ ')' :: rest) = c :: cs ++ ')' :: rest from rfl, hrun]
    simp only [hfraction, hexponent]
  have hname : startsName (')' :: rest) = false := rfl
  rw [numericToken, hwritten]
  dsimp only
  rw [hname]
  rfl

/-- The digits of a number in front of a parenthesis that closes. -/
theorem tokens_digits (n : Nat) :
    tokens (Nat.toDigits 10 n ++ ')' :: rest) = .number (numericOf (Nat.toDigits 10 n)) :: tokens (')' :: rest) := by
  have hdigits : ∀ c ∈ Nat.toDigits 10 n, c.isDigit = true := fun c hc =>
    Nat.isDigit_of_mem_toDigits (by decide) (by decide) hc
  obtain ⟨c, later, hcons⟩ := List.exists_cons_of_ne_nil (Nat.toDigits_ne_nil (n := n) (b := 10))
  rw [hcons] at hdigits ⊢
  have hc := hdigits c List.mem_cons_self
  have hne : ∀ x : Char, x.isDigit = false → c ≠ x := fun x => Text.ne_of_kind hc
  have hplain : plainToken c (later ++ ')' :: rest) = (.number (numericOf (c :: later)), ')' :: rest) := by
    simp [plainToken, otherToken, hne '"' (by decide), hne '\'' (by decide), hne '#' (by decide),
      (starts_of_isDigit hc).1, numericToken_digits hdigits]
  exact tokens_of_plainToken (startsPlain_of_ne fun x _ hx _ _ => hne x hx) hplain

end ElementLocator.Css
