import ElementLocator.Proofs.Css.Lexing
import ElementLocator.Proofs.Css.Reading

/-!
# Texts that write selectors

`Writes` says which component values a text has, in front of any text that does not go on with a name. Such texts can
be put one behind the other, behind a tag they make a compound, and compounds with a separator between them are read
as a complex selector.
-/

namespace ElementLocator.Css

open ComponentValue (ofTokens)

variable {c : Char} {cs cs' rest tag : List Char} {vs vs' : List ComponentValue} {pieces : List Piece}

/-! ### Behind a tag -/

/-- The text has the component values, whatever follows it that does not go on with a name; and the text itself does
not go on with a name. -/
structure Writes (cs : List Char) (vs : List ComponentValue) : Prop where
  values : ∀ rest, IdentEnds rest → ofTokens (tokens (cs ++ rest)) = vs ++ ofTokens (tokens rest)
  ends : ∀ rest, IdentEnds rest → IdentEnds (cs ++ rest)

/-- A character that belongs to no name ends the identifier in front of it. -/
theorem identEnds_cons (hname : isNameChar c = false) (hc : c ≠ '\x00' ∧ c ≠ '\\' ∧ c ≠ '(' ∧ c ≠ '>') :
    IdentEnds (c :: rest) := by
  refine ⟨?_, ?_⟩
  · intro x hx
    cases hx
    exact ⟨hname, hc.1, hc.2.1⟩
  · intro x hx
    cases hx
    exact hc.2.2

/-- Nothing is written as no values. -/
theorem Writes.nil : Writes [] [] := ⟨fun _ _ => rfl, fun _ hrest => hrest⟩

/-- Two written texts, one behind the other, are written as the values of both. -/
theorem Writes.append (h : Writes cs vs) (h' : Writes cs' vs') : Writes (cs ++ cs') (vs ++ vs') := by
  refine ⟨fun rest hrest => ?_, fun rest hrest => ?_⟩
  · rw [List.append_assoc, h.values _ (h'.ends rest hrest), h'.values rest hrest, List.append_assoc]
  · rw [List.append_assoc]
    exact h.ends _ (h'.ends rest hrest)

/-- What is written item by item is written as the values of all items. -/
theorem Writes.flatMap {α : Type} {items : List α} {text : α → List Char} {pieces : α → List Piece}
    (h : ∀ x ∈ items, Writes (text x) ((pieces x).flatMap Prod.fst)) :
    Writes (items.flatMap text) ((items.flatMap pieces).flatMap Prod.fst) := by
  induction items with
  | nil => exact Writes.nil
  | cons x items ih =>
    rw [List.flatMap_cons, List.flatMap_cons, List.flatMap_append]
    exact (h x List.mem_cons_self).append (ih fun y hy => h y (List.mem_cons_of_mem x hy))

/-- The place is the given one among the siblings with the same tag. -/
def placePiece (k : Nat) : Piece :=
  ([.single .colon, .block (.function "nth-of-type") [.single (.number (numericOf (Nat.toDigits 10 k)))]],
    [.nth ⟨0, (min 0x7FFFFFFF k : Nat), true, false⟩])

/-- The numbered condition is written as its piece. -/
theorem writes_place (k : Nat) :
    Writes (":nth-of-type(".toList ++ Nat.toDigits 10 k ++ ")".toList) (placePiece k).1 := by
  have htext : ∀ rest, ":nth-of-type(".toList ++ Nat.toDigits 10 k ++ ")".toList ++ rest =
      ':' :: ("nth-of-type".toList ++ '(' :: (Nat.toDigits 10 k ++ ')' :: rest)) := by
    intro rest
    have hstart : (":nth-of-type(".toList : List Char) = ':' :: ("nth-of-type".toList ++ ['(']) := by decide
    have hstop : (")".toList : List Char) = [')'] := by decide
    rw [hstart, hstop]
    simp only [List.append_assoc, List.cons_append, List.nil_append]
  refine ⟨fun rest hrest => ?_, fun rest _ => ?_⟩
  · have hcolon : punctuation? ':' = some .colon := rfl
    have hclosing : punctuation? ')' = some .closeParen := rfl
    have hblock : ofTokens (.function "nth-of-type" ::
        ([.number (numericOf (Nat.toDigits 10 k))] ++ .closeParen :: tokens rest)) =
          .block (.function "nth-of-type") [.single (.number (numericOf (Nat.toDigits 10 k)))] ::
            ofTokens (tokens rest) :=
      ComponentValue.ofTokens_block rfl (by simp [Token.closing?])
    rw [htext, tokens_punctuation hcolon, tokens_function (by decide) (by decide), tokens_digits,
      tokens_punctuation hclosing, ComponentValue.ofTokens_single rfl, String.ofList_toList]
    exact congrArg (ComponentValue.single .colon :: ·) hblock
  · rw [htext]
    exact identEnds_cons (by decide) (by decide)

/-- The piece of a number is read as the condition on the place. -/
theorem readsConditions_place (k : Nat) : ReadsConditions (placePiece k).1 (placePiece k).2 :=
  readsConditions_nthOfType (integer_numericOf k)

/-! ### Compounds -/

/-- The text has the component values of the compound, whatever follows it that does not go on with a name, and begins
with a letter. -/
structure WritesCompound (cs : List Char) (c : Compound) : Prop where
  values : ∀ rest, IdentEnds rest → ofTokens (tokens (cs ++ rest)) = c.values ++ ofTokens (tokens rest)
  starts : ∃ x later, cs = x :: later ∧ x.isAlpha = true

/-- A plain tag with a text behind it that writes conditions. -/
theorem Writes.compound (h : Writes cs (pieces.flatMap Prod.fst)) (hplain : Text.isPlainChars tag = true) :
    WritesCompound (tag ++ cs) ⟨String.ofList tag, pieces⟩ := by
  obtain ⟨x, later, htag, hx, -⟩ := Text.isPlainChars_iff.1 hplain
  refine ⟨fun rest hrest => ?_, x, later ++ cs, by rw [htag]; rfl, hx⟩
  have hne : tag ≠ [] := htag ▸ List.cons_ne_nil x later
  have htokens := tokens_writeIdentifier hne (h.ends rest hrest)
  rw [writeIdentifier_of_isPlainChars hplain, readBack_of_isPlainChars hplain] at htokens
  rw [List.append_assoc, htokens, ComponentValue.ofTokens_single rfl, h.values rest hrest]
  rfl

/-! ### Separators -/

/-- In front of a letter, the text has the component values, and it does not go on with a name. -/
structure Separates (sep : List Char) (vs : List ComponentValue) : Prop where
  values : ∀ c later, c.isAlpha = true →
    ofTokens (tokens (sep ++ c :: later)) = vs ++ ofTokens (tokens (c :: later))
  ends : ∀ rest, IdentEnds (sep ++ rest)

/-- A blank separates as one space. -/
theorem separates_blank : Separates [' '] [blank] where
  values c later hc := by
    rw [List.singleton_append, tokens_space (isCssSpace_of_isAlpha hc), ComponentValue.ofTokens_single rfl]
    rfl
  ends _ := identEnds_cons (by decide) (by decide)

/-- An arrow between blanks separates as three values. -/
theorem separates_arrow : Separates [' ', '>', ' '] [blank, .single (.delim '>'), blank] where
  values c later hc := by
    have harrow : tokens ('>' :: ' ' :: c :: later) = .delim '>' :: tokens (' ' :: c :: later) := tokens_of_lexeme rfl
    have hspace : isCssSpace '>' = false := by decide
    rw [List.cons_append, List.cons_append, List.singleton_append, tokens_space hspace,
      ComponentValue.ofTokens_single rfl, harrow, ComponentValue.ofTokens_single rfl,
      tokens_space (isCssSpace_of_isAlpha hc), ComponentValue.ofTokens_single rfl]
    rfl
  ends _ := identEnds_cons (by decide) (by decide)

variable {α : Type} {sep : List Char} {joint : Combinator} {first : α} {others : List α} {text : α → List Char}
  {compoundOf : α → Compound}

/-- Texts of compounds with the separator between them have the component values of the compounds, with those of the
separator between them. What follows a separator begins with a letter. -/
theorem Separates.ofTokens_intercalate (h : Separates sep vs)
    (hitems : ∀ x ∈ first :: others, WritesCompound (text x) (compoundOf x)) :
    ofTokens (tokens (sep.intercalate ((first :: others).map text))) =
      (compoundOf first).values ++ (others.map compoundOf).flatMap fun c => vs ++ c.values := by
  have hfirst := hitems first List.mem_cons_self
  induction others generalizing first with
  | nil =>
    have hends : IdentEnds [] := ⟨nofun, nofun⟩
    have hread := hfirst.values [] hends
    have hnil : ofTokens (tokens []) = [] := by
      rw [tokens]
      rfl
    rw [List.append_nil, hnil] at hread
    rw [List.map_singleton, List.intercalate_singleton]
    exact hread
  | cons second others ih =>
    have hsecond := hitems second (List.mem_cons_of_mem first List.mem_cons_self)
    have hmore := ih (fun x hx => hitems x (List.mem_cons_of_mem first hx)) hsecond
    obtain ⟨c, later, hshape, hc⟩ : ∃ c later,
        sep.intercalate ((second :: others).map text) = c :: later ∧ c.isAlpha = true := by
      obtain ⟨c, later, htext, hc⟩ := hsecond.starts
      rw [List.map_cons, htext, List.intercalate_cons_cons_left]
      exact ⟨c, _, rfl, hc⟩
    have hread := hfirst.values (sep ++ c :: later) (h.ends _)
    rw [h.values c later hc, ← hshape, hmore] at hread
    have htext : sep.intercalate ((first :: second :: others).map text) =
        text first ++ (sep ++ sep.intercalate ((second :: others).map text)) := by
      rw [List.map_cons, List.map_cons, List.intercalate_cons_cons, List.append_assoc]
    rw [htext, hread, List.map_cons, List.flatMap_cons, List.append_assoc]

/-- They are read as a complex selector. -/
theorem parse_intercalate (h : Separates sep vs) (hjoins : Joins joint vs)
    (hitems : ∀ x ∈ first :: others, WritesCompound (text x) (compoundOf x))
    (hreadable : ∀ x ∈ first :: others, (compoundOf x).Readable) :
    parse (String.ofList (sep.intercalate ((first :: others).map text))) =
      .ok [joinWith joint (compoundOf first) (others.map compoundOf)] := by
  have hothers : ∀ c ∈ others.map compoundOf, c.Readable :=
    List.forall_mem_map.2 fun x hx => hreadable x (List.mem_cons_of_mem first hx)
  rw [parse, ComponentValue.ofText, String.toList_ofList, h.ofTokens_intercalate hitems,
    hjoins.ofValues (hreadable first List.mem_cons_self) hothers]

end ElementLocator.Css
