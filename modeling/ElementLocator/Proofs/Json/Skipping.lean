import ElementLocator.Proofs.Json.Reading

/-!
# Passing over values of any kind

The grammar nests values inside brackets, while the reader keeps the open brackets on a stack and goes from one value
to the next. What ties the two together is the place behind a value: there the reader leaves the brackets that end and
goes on with the next value, or is done when no bracket is open.
-/

namespace ElementLocator.Json.Derives

open Reader

variable {x y z w : List Char} {bracket : Bracket} {opened : List Bracket}

/-- Goes on behind a value, inside the brackets that are still open. -/
def onward (bound : Nat) : List Bracket → Reader Unit
  | [] => pure ()
  | bracket :: outer => skipWithin (bracket :: outer) bound

/-- Skipping a value takes one step first and then goes on within the bound. -/
theorem skipWithin_succ (opened : List Bracket) (bound : Nat) :
    skipWithin opened (bound + 1) = skipOne opened >>= onward bound := by
  rw [skipWithin]
  congr 1

/-- So does what goes on while brackets are open. -/
theorem onward_succ (bracket : Bracket) (outer : List Bracket) (bound : Nat) :
    onward (bound + 1) (bracket :: outer) = skipOne (bracket :: outer) >>= onward bound :=
  skipWithin_succ _ _

/-- From `w` on the reader passes over what stands in front of `y`, and goes on there inside the brackets `opened` with
a bound that fits what is left of the text. -/
def PassesTo (reader : Reader Unit) (w : List Char) (opened : List Bracket) (y : List Char) : Prop :=
  ∃ bound, y.length ≤ bound ∧ ∀ z, Reads (leave opened >>= onward bound) y () z → Reads reader w () z

/-! ### Brackets -/

@[simp] theorem isBlank_opening (bracket : Bracket) : isBlank bracket.opening = false := by
  cases bracket <;> rfl

@[simp] theorem isBlank_closing (bracket : Bracket) : isBlank bracket.closing = false := by
  cases bracket <;> rfl

/-- A closing bracket is no comma. -/
theorem closing_ne_comma (bracket : Bracket) : bracket.closing ≠ ',' := by
  cases bracket <;> decide

section Steps

variable {next : List Bracket → Reader Unit}

/-- At an opening bracket, skipping goes on with what enters it. -/
theorem reads_skipOne_opening (hb : Blanks w (bracket.opening :: x))
    (h : Reads (enter bracket opened >>= next) x () y) : Reads (skipOne opened >>= next) w () y := by
  rw [skipOne, bind_assoc]
  refine (hb.reads_valueStart (isBlank_opening bracket)).bind ?_
  cases bracket <;> simpa only [bind_assoc, Bracket.opening] using reads_skip.bind h

/-- Brackets with nothing inside are left at once. -/
theorem reads_enter_closing (hb : Blanks x (bracket.closing :: y)) (h : Reads (leave opened >>= next) y () z) :
    Reads (enter bracket opened >>= next) x () z := by
  rw [enter, bind_assoc]
  refine (hb.reads_peekPastBlank (by simp)).bind ?_
  simp only [List.head?_cons]
  rw [if_true, bind_assoc]
  exact reads_skip.bind h

/-- A bracket with something in it is opened, and its first key is skipped. -/
theorem reads_enter_filled {c : Char} (hb : Blanks w (c :: x)) (hblank : isBlank c = false) (hc : c ≠ bracket.closing)
    (h : Reads (skipKey bracket >>= fun _ => next (bracket :: opened)) (c :: x) () y) :
    Reads (enter bracket opened >>= next) w () y := by
  rw [enter, bind_assoc]
  refine (hb.reads_peekPastBlank (by simp [hblank])).bind ?_
  simp only [List.head?_cons]
  rw [if_neg hc, bind_assoc]
  exact h

/-- A closing bracket is taken, and the brackets around it are left in their turn. -/
theorem reads_leave_closing (hb : Blanks x (bracket.closing :: y)) (h : Reads (leave opened >>= next) y () z) :
    Reads (leave (bracket :: opened) >>= next) x () z := by
  rw [leave, bind_assoc]
  refine (hb.reads_peekPastBlank (by simp)).bind ?_
  simp only [List.head?_cons]
  rw [if_neg (closing_ne_comma bracket), if_true, bind_assoc]
  exact reads_skip.bind h

/-- A comma is taken, and the next key is skipped. -/
theorem reads_leave_comma (hb : Blanks x (',' :: y))
    (h : Reads (skipKey bracket >>= fun _ => next (bracket :: opened)) y () z) :
    Reads (leave (bracket :: opened) >>= next) x () z := by
  rw [leave, bind_assoc]
  refine (hb.reads_peekPastBlank (by simp; decide)).bind ?_
  simp only [List.head?_cons]
  rw [if_true, bind_assoc]
  refine reads_skip.bind ?_
  rw [bind_assoc]
  exact h

end Steps

/-- A key is skipped up to the blanks in front of its value. -/
theorem Key.reads (hb : Blanks w x) (h : Key bracket x y) : ∃ v, Blanks v y ∧ Reads (skipKey bracket) w () v := by
  cases h with
  | none => exact ⟨w, hb, reads_pure ()⟩
  | name hname hcolon hvalue =>
    have hquote := hb.reads_peekPastBlank (by simp; decide)
    exact ⟨_, hvalue, hquote.bind <| reads_skip.bind <| hname.reads.bind hcolon.reads_colon⟩

/-! ### Values -/

/-- The reader passes over a value without brackets, and does behind it what it does behind any value. No digit starts a
value of another kind. -/
theorem Scalar.reads_skipOne {next : List Bracket → Reader Unit} (hb : Blanks w x) (h : Scalar x y)
    (hend : EndsNumber y) (hnext : Reads (leave opened >>= next) y () z) :
    Reads (skipOne opened >>= next) w () z := by
  rw [skipOne, bind_assoc]
  cases h with
  | null =>
    refine (hb.reads_valueStart (by decide)).bind ?_
    simpa only [bind_assoc] using reads_skip.bind ((reads_word ['u', 'l', 'l']).bind hnext)
  | truth h =>
    cases h with
    | yes =>
      refine (hb.reads_valueStart (by decide)).bind ?_
      simpa only [bind_assoc] using reads_skip.bind ((reads_word ['r', 'u', 'e']).bind hnext)
    | no =>
      refine (hb.reads_valueStart (by decide)).bind ?_
      simpa only [bind_assoc] using reads_skip.bind ((reads_word ['a', 'l', 's', 'e']).bind hnext)
  | string h =>
    refine (hb.reads_valueStart (by decide)).bind ?_
    simpa only [bind_assoc] using reads_skip.bind (h.reads.bind hnext)
  | positive h =>
    have hread : Reads (skipNumber >>= fun _ => leave opened >>= next) x () z := (h.reads hend).bind hnext
    obtain ⟨c, rest, rfl, hdigit⟩ := h.head
    refine (hb.reads_valueStart (isBlank_of_isDigit hdigit)).bind ?_
    split
    all_goals try exact absurd hdigit (by decide)
    rwa [if_pos hdigit, bind_assoc]
  | negative h =>
    refine (hb.reads_valueStart (by decide)).bind ?_
    simpa only [bind_assoc] using reads_skip.bind ((h.reads hend).bind hnext)

mutual

/-- Skipping passes a value and then closes what is open. By induction on the derivation: each value takes one from the
bound and at least one character from the text, so that a bound that fits the text in front of a value fits the text
behind it. -/
theorem Value.passes {x y w : List Char} (opened : List Bracket) {bound : Nat} (hb : Blanks w x)
    (hend : EndsNumber y) (hbound : x.length ≤ bound + 1) :
    Value x y → PassesTo (skipOne opened >>= onward bound) w opened y
  | .scalar h => by
    have hlt := h.length_lt
    exact ⟨bound, by omega, fun z hz => h.reads_skipOne hb hend hz⟩
  | .empty hclosing => by
    have hle := hclosing.length_le
    rw [List.length_cons] at hbound hle
    exact ⟨bound, by omega, fun z hz => reads_skipOne_opening hb (reads_enter_closing hclosing hz)⟩
  | .filled hb' h => by
    have hle := hb'.length_le
    rw [List.length_cons] at hbound
    obtain ⟨later, hlater, hinside⟩ := h.passes opened .none (hle.trans (Nat.le_of_succ_le_succ hbound))
    obtain ⟨c, rest, rfl, hc, hclosing⟩ := h.head
    exact ⟨later, hlater, fun z hz => reads_skipOne_opening hb (reads_enter_filled hb' hc hclosing (hinside z hz))⟩

/-- Skipping passes what is inside brackets, the closing one included. -/
theorem Inside.passes {x y w : List Char} {bracket : Bracket} (opened : List Bracket) {bound : Nat}
    (hb : Blanks w x) (hbound : x.length ≤ bound) :
    Inside bracket x y → PassesTo (skipKey bracket >>= fun _ => onward bound (bracket :: opened)) w opened y
  | .last hkey hvalue hclosing => by
    have hle := hkey.length_le
    have hlt := hvalue.length_lt
    have hrest := hclosing.length_le
    have hend := hclosing.endsNumber (by cases bracket <;> decide)
    rw [List.length_cons] at hrest
    obtain ⟨bound, rfl⟩ := Nat.exists_eq_add_one_of_ne_zero (by omega : bound ≠ 0)
    obtain ⟨v, hv, hkey⟩ := hkey.reads hb
    obtain ⟨later, hlater, hpass⟩ := hvalue.passes (bracket :: opened) hv hend (hle.trans hbound)
    rw [onward_succ]
    exact ⟨later, by omega, fun z hz => hkey.bind (hpass z (reads_leave_closing hclosing hz))⟩
  | .cons hkey hvalue hcomma hb' h => by
    have hle := hkey.length_le
    have hlt := hvalue.length_lt
    have hrest := hcomma.length_le
    have hrest' := hb'.length_le
    have hend := hcomma.endsNumber (.inl rfl)
    rw [List.length_cons] at hrest
    obtain ⟨bound, rfl⟩ := Nat.exists_eq_add_one_of_ne_zero (by omega : bound ≠ 0)
    obtain ⟨v, hv, hkey⟩ := hkey.reads hb
    obtain ⟨later, hlater, hpass⟩ := hvalue.passes (bracket :: opened) hv hend (hle.trans hbound)
    have hfits := hrest'.trans (Nat.le_of_succ_le (hrest.trans hlater))
    obtain ⟨last, hlast, hinside⟩ := h.passes opened hb' hfits
    rw [onward_succ]
    exact ⟨last, hlast, fun z hz => hkey.bind (hpass z (reads_leave_comma hcomma (hinside z hz)))⟩

end

/-- A value of any kind is passed over. -/
theorem Value.reads (hb : Blanks w x) (h : Value x y) (hend : EndsNumber y) : Reads anything w () y := by
  refine .get_bind fun _ => ?_
  obtain ⟨later, -, hpass⟩ := h.passes [] hb hend (Nat.le_succ_of_le hb.length_le)
  rw [skipWithin_succ]
  exact hpass y (reads_pure ())

end ElementLocator.Json.Derives
