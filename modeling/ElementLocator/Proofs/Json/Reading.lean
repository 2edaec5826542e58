import ElementLocator.Proofs.Json.Grammar

/-!
# Reading what the grammar derives

What the grammar derives is read to its end with the value that it stands for. A number is read for as long as it goes
on, so the text behind it must not go on with it.
-/

namespace ElementLocator.Json

variable {α β : Type} {x y z : List Char}

namespace Reader

/-- In front of `x` the reader hands back `a` and stops in front of `y`, at whatever position that is. -/
def Reads (reader : Reader α) (x : List Char) (a : α) (y : List Char) : Prop :=
  ∀ p, ∃ q, reader ⟨x, p⟩ = .ok (a, ⟨y, q⟩)

/-- A reader that returns a value takes nothing from the text. -/
theorem reads_pure (a : α) : Reads (pure a) x a x := fun p => ⟨p, rfl⟩

/-- One reader after the other reads what the two parts of the text say. -/
theorem Reads.bind {reader : Reader α} {next : α → Reader β} {a : α} {b : β} (h : Reads reader x a y)
    (hnext : Reads (next a) y b z) : Reads (reader >>= next) x b z := by
  intro p
  obtain ⟨q, hq⟩ := h p
  obtain ⟨r, hr⟩ := hnext q
  refine ⟨r, ?_⟩
  change (reader ⟨x, p⟩).bind _ = _
  rw [hq]
  exact hr

/-- A function of what is read is read from the same text. -/
theorem Reads.map {reader : Reader α} {a : α} (f : α → β) (h : Reads reader x a y) :
    Reads (f <$> reader) x (f a) y := by
  rw [map_eq_pure_bind]
  exact h.bind (reads_pure _)

/-- A reader may look at its cursor first, as long as the position does not decide what is read. -/
theorem Reads.get_bind {next : Cursor → Reader β} {b : β} (h : ∀ p, Reads (next ⟨x, p⟩) x b y) :
    Reads (get >>= next) x b y := fun p => h p p

/-- Peeking tells the next character and takes nothing. -/
theorem reads_peek : Reads peek x x.head? x := fun p => ⟨p, rfl⟩

/-- Skipping takes one character. -/
theorem reads_skip {c : Char} : Reads skip (c :: x) () x := fun _ => ⟨_, rfl⟩

/-- A run takes the longest front of its kind. -/
theorem reads_run (kind : Char → Bool) : Reads (run kind) x (x.takeWhile kind) (x.dropWhile kind) :=
  fun _ => ⟨_, rfl⟩

/-- A word is taken from the text that starts with its letters. -/
theorem reads_word (letters : List Char) : Reads (word letters) (letters ++ x) () x := by
  induction letters with
  | nil => exact reads_pure ()
  | cons letter letters ih =>
    refine reads_peek.bind ?_
    change Reads (if letter = letter then _ else _) _ _ _
    rw [if_pos rfl]
    exact reads_skip.bind ih

end Reader

namespace Derives

open Reader

/-! ### Blank characters -/

/-- What is left behind blanks is left as well when all of them are dropped, unless another blank comes next. -/
theorem Blanks.dropWhile (h : Blanks x y) (hstop : ∀ c ∈ y.head?, isBlank c = false) : x.dropWhile isBlank = y := by
  induction h with
  | @none x =>
    cases x with
    | nil => rfl
    | cons c x => exact List.dropWhile_cons_of_neg (by simp [hstop c rfl])
  | cons hc _ ih => rw [List.dropWhile_cons_of_pos hc, ih hstop]

/-- Behind blanks the next character is seen. -/
theorem Blanks.reads_peekPastBlank (h : Blanks x y) (hstop : ∀ c ∈ y.head?, isBlank c = false) :
    Reads peekPastBlank x y.head? y := by
  have hrun := reads_run (x := x) isBlank
  rw [h.dropWhile hstop] at hrun
  exact hrun.bind reads_peek

/-- Behind blanks the first character of a value is seen. -/
theorem Blanks.reads_valueStart {c : Char} (h : Blanks x (c :: y)) (hc : isBlank c = false) :
    Reads valueStart x c (c :: y) :=
  (h.reads_peekPastBlank (by simpa using hc)).bind (reads_pure c)

/-- A text is read as a whole, if only blank characters follow its value. -/
theorem Blanks.readAll_eq_ok {reader : Reader α} {text : String} {a : α} (hb : Blanks x [])
    (h : Reads reader text.toList a x) : readAll reader text = .ok a := by
  obtain ⟨p, hp⟩ := h ⟨1, 0⟩
  obtain ⟨q, hq⟩ := hb.reads_peekPastBlank (by simp) p
  rw [List.head?_nil] at hq
  simp only [readAll, bind, StateT.bind, Except.bind, hp, hq]
  rfl

/-- A truth value is read behind blanks. -/
theorem Truth.reads {value : Bool} (hb : Blanks x y) (h : Truth y value z) : Reads Reader.boolean x value z := by
  cases h with
  | yes =>
    refine (hb.reads_valueStart (by decide)).bind ?_
    exact reads_skip.bind <| (reads_word ['r', 'u', 'e']).bind (reads_pure true)
  | no =>
    refine (hb.reads_valueStart (by decide)).bind ?_
    exact reads_skip.bind <| (reads_word ['a', 'l', 's', 'e']).bind (reads_pure false)

/-! ### Strings -/

/-- Four hexadecimal digits are read as their number. -/
theorem FourDigits.reads {n : Nat} (h : FourDigits x n y) : Reads escapeNumber x n y := by
  cases h with
  | @digits a b c d _ hdigits =>
    have hsize : ¬ (String.ofList (a :: b :: c :: d :: y)).utf8ByteSize < 4 := by
      have ha := a.utf8Size_pos
      have hb := b.utf8Size_pos
      have hc := c.utf8Size_pos
      have hd := d.utf8Size_pos
      simp only [String.utf8ByteSize_ofList, String.utf8Len_cons]
      omega
    intro p
    have hread : escapeNumber ⟨a :: b :: c :: d :: y, p⟩ =
        .ok (Text.hexNumber [a, b, c, d], ⟨y, p.ahead 4 (a :: b :: c :: d :: y)⟩) := by
      rw [escapeNumber, if_neg hsize]
      exact if_pos (List.all_eq_true.2 hdigits)
    exact ⟨_, hread⟩

/-- No surrogate is both a first and a second one. -/
theorem isSecondSurrogate_of_isFirstSurrogate {n : Nat} (h : isFirstSurrogate n = true) :
    isSecondSurrogate n = false := by
  unfold isFirstSurrogate at h
  unfold isSecondSurrogate
  grind

/-- A character of a pair is passed over if it comes next. -/
theorem reads_pairCharacter {c : Char} : Reads (pairCharacter c) (c :: x) () x := by
  refine reads_peek.bind ?_
  change Reads (if c = c then _ else _) _ _ _
  rw [if_pos rfl]
  exact reads_skip

/-- An escape is read as the character that it stands for. -/
theorem Escape.reads {c : Char} (h : Escape x c y) : Reads escaped x c y := by
  cases h with
  | short h =>
    unfold shortEscape? at h
    split at h
    all_goals cases h
    all_goals exact reads_peek.bind (reads_skip.bind (reads_pure _))
  | number h hfirst hsecond =>
    refine reads_peek.bind <| reads_skip.bind <| h.reads.bind ?_
    rw [if_neg (by simp [hsecond]), if_neg (by simp [hfirst])]
    exact reads_pure _
  | surrogates h hfirst hk hsecond =>
    refine reads_peek.bind <| reads_skip.bind <| h.reads.bind ?_
    rw [if_neg (by simp [isSecondSurrogate_of_isFirstSurrogate hfirst]), if_pos hfirst]
    refine reads_pairCharacter.bind <| reads_pairCharacter.bind <| hk.reads.bind ?_
    rw [if_pos hsecond]
    exact reads_pure _

/-- By induction on the string: each of its characters takes at least one from the text, and one from the bound. -/
theorem Literal.reads_textWithin {cs : List Char} {bound : Nat} (h : Literal x cs y) (hbound : x.length < bound) :
    Reads (textWithin bound) x cs y := by
  induction h generalizing bound with
  | closing =>
    obtain ⟨bound, rfl⟩ := Nat.exists_eq_add_one_of_ne_zero (Nat.ne_zero_of_lt hbound)
    exact reads_peek.bind (reads_skip.bind (reads_pure _))
  | itself hc _ ih =>
    obtain ⟨bound, rfl⟩ := Nat.exists_eq_add_one_of_ne_zero (Nat.ne_zero_of_lt hbound)
    obtain ⟨hprint, hquote, hback⟩ := hc
    refine reads_peek.bind ?_
    simp only [List.head?_cons]
    rw [if_neg (Nat.not_lt.2 hprint)]
    exact reads_skip.bind ((ih (Nat.lt_of_succ_lt_succ hbound)).bind (reads_pure _))
  | escape h _ ih =>
    obtain ⟨bound, rfl⟩ := Nat.exists_eq_add_one_of_ne_zero (Nat.ne_zero_of_lt hbound)
    have hlt := h.length_lt
    rw [List.length_cons] at hbound
    exact reads_peek.bind <| reads_skip.bind <| h.reads.bind <| (ih (by omega)).bind (reads_pure _)

/-- A literal is read to its end as its characters. -/
theorem Literal.reads {cs : List Char} (h : Literal x cs y) : Reads textToEnd x (String.ofList cs) y :=
  .get_bind fun _ => (h.reads_textWithin (Nat.lt_succ_self _)).bind (reads_pure _)

/-- A string is read behind blanks. -/
theorem StringValue.reads {text expected : String} (hb : Blanks x y) (h : StringValue y text z) :
    Reads (Reader.text expected) x text z := by
  cases h with
  | quoted h => exact (hb.reads_valueStart (by decide)).bind (reads_skip.bind h.reads)

/-- A short escape is skipped. -/
theorem reads_skipEscape_short {letter c : Char} (h : shortEscape? letter = some c) :
    Reads skipEscape (letter :: x) () x := by
  unfold shortEscape? at h
  split at h
  all_goals cases h
  all_goals exact reads_peek.bind reads_skip

/-- An escape by number is skipped. -/
theorem FourDigits.reads_skipEscape {n : Nat} (h : FourDigits x n y) : Reads skipEscape ('u' :: x) () y :=
  reads_peek.bind <| reads_skip.bind <| h.reads.bind (reads_pure ())

/-- A text in quotation marks is skipped within a bound above its length. -/
theorem Quoted.reads_skipTextWithin {bound : Nat} (h : Quoted x y) (hbound : x.length < bound) :
    Reads (skipTextWithin bound) x () y := by
  induction h generalizing bound with
  | closing =>
    obtain ⟨bound, rfl⟩ := Nat.exists_eq_add_one_of_ne_zero (Nat.ne_zero_of_lt hbound)
    exact reads_peek.bind reads_skip
  | itself hc _ ih =>
    obtain ⟨bound, rfl⟩ := Nat.exists_eq_add_one_of_ne_zero (Nat.ne_zero_of_lt hbound)
    obtain ⟨hprint, hquote, hback⟩ := hc
    refine reads_peek.bind ?_
    simp only [List.head?_cons]
    rw [if_neg (Nat.not_lt.2 hprint)]
    exact reads_skip.bind (ih (Nat.lt_of_succ_lt_succ hbound))
  | short hletter _ ih =>
    obtain ⟨bound, rfl⟩ := Nat.exists_eq_add_one_of_ne_zero (Nat.ne_zero_of_lt hbound)
    rw [List.length_cons, List.length_cons] at hbound
    exact reads_peek.bind <| reads_skip.bind <| (reads_skipEscape_short hletter).bind (ih (by omega))
  | number h _ ih =>
    obtain ⟨bound, rfl⟩ := Nat.exists_eq_add_one_of_ne_zero (Nat.ne_zero_of_lt hbound)
    rw [List.length_cons, List.length_cons, h.length_eq] at hbound
    exact reads_peek.bind <| reads_skip.bind <| h.reads_skipEscape.bind (ih (by omega))

/-- A text in quotation marks is skipped. -/
theorem Quoted.reads (h : Quoted x y) : Reads skipText x () y :=
  .get_bind fun _ => h.reads_skipTextWithin (Nat.lt_succ_self _)

/-! ### Numbers -/

/-- The text does not go on with a number. -/
def EndsNumber (x : List Char) : Prop := ∀ c ∈ x.head?, c.isDigit = false ∧ c ≠ '.' ∧ c ≠ 'e' ∧ c ≠ 'E'

/-- A number ends where a comma or the end of brackets follows, perhaps behind blank characters. -/
theorem Blanks.endsNumber {c : Char} (h : Blanks x (c :: y)) (hc : c = ',' ∨ c = ']' ∨ c = '\x7d') :
    EndsNumber x := by
  cases h with
  | none =>
    rintro d ⟨⟩
    rcases hc with rfl | rfl | rfl <;> decide
  | cons hblank =>
    rintro d ⟨⟩
    simp only [isBlank, Bool.or_eq_true, beq_iff_eq] at hblank
    rcases hblank with ((rfl | rfl) | rfl) | rfl <;> decide

/-- Digits with no digit behind them are a run that is not empty. -/
theorem Digits.reads (h : Digits x y) (hstop : ∀ c ∈ y.head?, c.isDigit = false) :
    ∃ digits, digits.isEmpty = false ∧ Reads (run Char.isDigit) x digits y := by
  have hrun : (x.takeWhile Char.isDigit).isEmpty = false ∧ x.dropWhile Char.isDigit = y := by
    induction h with
    | @one c x hc =>
      rw [List.takeWhile_cons_of_pos hc, List.dropWhile_cons_of_pos hc]
      refine ⟨rfl, ?_⟩
      cases x with
      | nil => rfl
      | cons d x => exact List.dropWhile_cons_of_neg (by simp [hstop d rfl])
    | cons hc _ ih =>
      rw [List.takeWhile_cons_of_pos hc, List.dropWhile_cons_of_pos hc]
      exact ⟨rfl, (ih hstop).2⟩
  refine ⟨_, hrun.1, ?_⟩
  rw [← hrun.2]
  exact reads_run _

/-- No digit comes next where a fraction may stand, unless one follows it. -/
theorem Fraction.head (h : Fraction x y) (hy : ∀ c ∈ y.head?, c.isDigit = false) :
    ∀ c ∈ x.head?, c.isDigit = false := by
  cases h with
  | none => exact hy
  | point => simp

/-- Where an exponent may stand, neither a digit nor a point comes next, as long as the number ends behind it. -/
theorem Exponent.head (h : Exponent x y) (hend : EndsNumber y) :
    ∀ c ∈ x.head?, c.isDigit = false ∧ c ≠ '.' := by
  cases h with
  | none => exact fun c hc => ⟨(hend c hc).1, (hend c hc).2.1⟩
  | power hc => rcases hc with rfl | rfl <;> simp

/-- The digits of an exponent are skipped, since there are some. -/
theorem reads_exponentDigits (hdigits : Digits x y) (hend : EndsNumber y) :
    Reads (do if (← run Char.isDigit).isEmpty then refuse .invalidNumber) x () y := by
  obtain ⟨digits, hne, hrun⟩ := hdigits.reads fun c hc => (hend c hc).1
  refine hrun.bind ?_
  rw [if_neg (by simp [hne])]
  exact reads_pure ()

/-- An exponent is skipped up to the end of the number. -/
theorem Exponent.reads (h : Exponent x y) (hend : EndsNumber y) : Reads skipExponent x () y := by
  refine reads_peek.bind ?_
  cases h with
  | none =>
    rw [if_neg]
    · exact reads_pure ()
    · rintro (he | he)
      · exact (hend _ he).2.2.1 rfl
      · exact (hend _ he).2.2.2 rfl
  | power hc hsign hdigits =>
    rw [if_pos (by simpa using hc)]
    refine reads_skip.bind <| reads_peek.bind ?_
    cases hsign with
    | none =>
      rw [if_neg]
      · exact reads_exponentDigits hdigits hend
      · rintro (hs | hs)
        all_goals exact absurd (hdigits.head _ hs) (by decide)
    | plus | minus =>
      rw [if_pos (by simp)]
      exact reads_skip.bind (reads_exponentDigits hdigits hend)

/-- A magnitude is skipped up to the end of the number. -/
theorem Magnitude.reads (h : Magnitude x y) (hend : EndsNumber y) : Reads skipNumber x () y := by
  cases h with
  | @parts u v _ hwhole hfraction hexponent => ?_
  have hv : ∀ c ∈ v.head?, c.isDigit = false := fun c hc => (hexponent.head hend c hc).1
  have hu : ∀ c ∈ u.head?, c.isDigit = false := hfraction.head hv
  have hrest : Reads (do
      if (← peek) = some '.' then
        skip
        if (← run Char.isDigit).isEmpty then refuse .invalidNumber
      skipExponent) u () y := by
    refine reads_peek.bind ?_
    dsimp only
    cases hfraction with
    | none =>
      rw [if_neg fun hpoint : u.head? = some '.' => (hexponent.head hend _ hpoint).2 rfl]
      exact hexponent.reads hend
    | point hdigits =>
      obtain ⟨digits, hne, hrun⟩ := hdigits.reads hv
      rw [if_pos (by simp)]
      refine reads_skip.bind <| hrun.bind ?_
      rw [if_neg (by simp [hne])]
      exact hexponent.reads hend
  refine reads_peek.bind ?_
  cases hwhole with
  | zero =>
    rw [if_pos (by simp)]
    refine reads_skip.bind <| reads_peek.bind ?_
    rw [if_neg]
    · exact hrest
    · rw [Option.any_eq_true]
      rintro ⟨c, hc, hdigit⟩
      exact absurd hdigit (by simp [hu c hc])
  | digits hc hdigits =>
    obtain ⟨digits, hne, hrun⟩ := hdigits.reads hu
    rw [if_neg (by simpa using hc)]
    refine hrun.bind ?_
    rw [if_neg (by simp [hne])]
    exact hrest

/-! ### Between items -/

section Between

variable {c : Char} {w : List Char} {first : Bool}

/-- The first item of brackets comes at once, and a later one behind a comma. -/
inductive LeadsTo : Bool → List Char → List Char → Prop
  | first {w x : List Char} : Blanks w x → LeadsTo true w x
  | later {w x z : List Char} : Blanks w (',' :: z) → Blanks z x → LeadsTo false w x

/-- Where one more item is in front, the array goes on with it. -/
theorem LeadsTo.reads_nextItem (h : LeadsTo first w (c :: x)) (hblank : isBlank c = false) (hc : c ≠ ']') :
    Reads (nextItem first) w true (c :: x) := by
  cases h with
  | first hb =>
    refine (hb.reads_peekPastBlank (by simpa using hblank)).bind ?_
    simp only [List.head?_cons]
    exact reads_pure true
  | later hcomma hb =>
    refine (hcomma.reads_peekPastBlank (by simp; decide)).bind ?_
    refine reads_skip.bind <| (hb.reads_peekPastBlank (by simpa using hblank)).bind ?_
    simp only [List.head?_cons]
    exact reads_pure true

/-- At the closing bracket no more items come. -/
theorem Blanks.reads_nextItem (hb : Blanks w (']' :: x)) : Reads (nextItem first) w false (']' :: x) :=
  (hb.reads_peekPastBlank (by simp; decide)).bind (reads_pure false)

/-- The closing bracket ends an array. -/
theorem Blanks.reads_closeArray (hb : Blanks w (']' :: x)) : Reads closeArray w () x :=
  (hb.reads_peekPastBlank (by simp; decide)).bind reads_skip

/-- Where one more member is in front, its key is read. -/
theorem LeadsTo.reads_nextKey {cs : List Char} (h : LeadsTo first w ('"' :: x)) (hkey : Literal x cs y) :
    Reads (nextKey first) w (some (String.ofList cs)) y := by
  cases h with
  | first hb =>
    refine (hb.reads_peekPastBlank (by simp; decide)).bind ?_
    exact reads_skip.bind (hkey.reads.map some)
  | later hcomma hb =>
    refine (hcomma.reads_peekPastBlank (by simp; decide)).bind ?_
    refine reads_skip.bind <| (hb.reads_peekPastBlank (by simp; decide)).bind ?_
    exact reads_skip.bind (hkey.reads.map some)

/-- At the closing bracket no more members come. -/
theorem Blanks.reads_nextKey (hb : Blanks w ('\x7d' :: x)) : Reads (nextKey first) w Option.none ('\x7d' :: x) :=
  (hb.reads_peekPastBlank (by simp; decide)).bind (reads_pure Option.none)

/-- A colon is taken behind blanks. -/
theorem Blanks.reads_colon (hb : Blanks w (':' :: x)) : Reads colon w () x :=
  (hb.reads_peekPastBlank (by simp; decide)).bind reads_skip

/-- An array that is closed has no more items. -/
theorem Blanks.reads_itemsWithin (item : Reader α) (bound : Nat) (hb : Blanks w (']' :: x)) :
    Reads (itemsWithin item first (bound + 1)) w [] (']' :: x) :=
  hb.reads_nextItem.bind (reads_pure [])

/-- An item takes one from the bound; what is behind it is read as the later items. -/
theorem StringValue.reads_itemsWithin {text expected : String} {texts : List String} {bound : Nat}
    (h : StringValue x text y) (hlead : LeadsTo first w x)
    (hlater : Reads (itemsWithin (Reader.text expected) false bound) y texts z) :
    Reads (itemsWithin (Reader.text expected) first (bound + 1)) w (text :: texts) z := by
  cases h with
  | quoted h =>
    refine (hlead.reads_nextItem (by decide) (by decide)).bind ?_
    rw [if_pos rfl]
    exact ((StringValue.quoted h).reads .none).bind (hlater.bind (reads_pure _))

/-- By induction on the items: each of them takes one from the bound, and the end takes the last one. -/
theorem Items.reads_itemsWithin {texts : List String} {bound : Nat} (expected : String)
    (h : Items .array StringValue x texts y) (hlead : LeadsTo first w x) (hbound : texts.length < bound) :
    Reads (itemsWithin (Reader.text expected) first bound) w texts (']' :: y) := by
  induction h generalizing w first bound with
  | last hitem hclosing =>
    obtain ⟨bound, rfl⟩ : ∃ more, bound = more + 2 := ⟨bound - 2, (Nat.sub_add_cancel hbound).symm⟩
    exact hitem.reads_itemsWithin hlead (hclosing.reads_itemsWithin _ bound)
  | cons hitem hcomma hb _ ih =>
    obtain ⟨bound, rfl⟩ := Nat.exists_eq_add_one_of_ne_zero (Nat.ne_zero_of_lt hbound)
    exact hitem.reads_itemsWithin hlead (ih (.later hcomma hb) (Nat.lt_of_succ_lt_succ hbound))

/-- An array of strings is read as the list of their texts. -/
theorem Bracketed.reads_array {texts : List String} {expected : String} (hb : Blanks w x)
    (h : Bracketed .array StringValue x texts y) : Reads (Reader.array (Reader.text expected)) w texts y := by
  cases h with
  | empty hclosing =>
    refine (hb.reads_valueStart (by decide)).bind <| reads_skip.bind <| .get_bind fun _ => ?_
    refine (hclosing.reads_itemsWithin _ _).bind ?_
    exact (Blanks.none.reads_closeArray).bind (reads_pure [])
  | @filled _ u _ _ hb' hitems =>
    refine (hb.reads_valueStart (by decide)).bind <| reads_skip.bind <| .get_bind fun _ => ?_
    have hlt := hitems.length_lt fun _ _ _ => StringValue.length_lt
    have hle := hb'.length_le
    refine (hitems.reads_itemsWithin expected (.first hb') (by dsimp only; omega)).bind ?_
    exact (Blanks.none.reads_closeArray).bind (reads_pure texts)

end Between

end Derives

end ElementLocator.Json
