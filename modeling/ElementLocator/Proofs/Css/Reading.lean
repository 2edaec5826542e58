import ElementLocator.Css.Selector.Parser
import Mathlib

/-!
# What the readers of selectors make of tokens

Tokens are put together to component values, and from those the readers take simple selectors, compounds and complex
selectors. There is one law for each kind of simple selector that locators write; a compound is a tag with simple
selectors behind it, and what stands between two compounds says how they are joined: white space alone joins them as
descendants, with a `>` in it as children.
-/

namespace ElementLocator.Css

namespace ComponentValue

variable {closing : Option Token} {bound : Nat} {ts rest : List Token} {t : Token}

/-! ### Blocks -/

/-- What is left behind component values is no longer than the tokens. -/
theorem length_gather (closing : Option Token) (bound : Nat) (ts : List Token) :
    (gather closing bound ts).2.length ≤ ts.length := by
  induction bound generalizing closing ts with
  | zero => exact Nat.le_refl _
  | succ bound ih =>
    cases ts with
    | nil => exact Nat.le_refl _
    | cons t rest =>
      rw [gather, List.length_cons]
      split
      · exact Nat.le_succ _
      split
      · exact Nat.le_succ_of_le (ih closing rest)
      · next close _ =>
        have hblock := ih (some close) rest
        have hlater := ih closing (gather (some close) bound rest).2
        exact Nat.le_succ_of_le (hlater.trans hblock)

/-- Every bound that is sufficient gives the same component values. -/
theorem gather_eq_of_le (hbound : ts.length ≤ bound) : gather closing bound ts = gather closing ts.length ts := by
  suffices h : ∀ {bound bound' : Nat} {closing : Option Token} {ts : List Token}, ts.length ≤ bound →
      ts.length ≤ bound' → gather closing bound ts = gather closing bound' ts from h hbound (Nat.le_refl _)
  clear hbound
  intro bound
  induction bound with
  | zero =>
    intro bound' closing ts hbound _
    rw [List.length_eq_zero_iff.1 (Nat.le_zero.1 hbound)]
    cases bound' <;> rfl
  | succ bound ih =>
    intro bound' closing ts hbound hbound'
    cases ts with
    | nil => cases bound' <;> rfl
    | cons t rest =>
      cases bound' with
      | zero => exact absurd hbound' (Nat.not_succ_le_zero _)
      | succ bound' =>
        have hrest := Nat.le_of_succ_le_succ hbound
        have hrest' := Nat.le_of_succ_le_succ hbound'
        have hblock : ∀ close, gather close bound rest = gather close bound' rest := fun close => ih hrest hrest'
        have hlater : ∀ close, gather closing bound (gather close bound' rest).2 =
            gather closing bound' (gather close bound' rest).2 := by
          intro close
          have hle := length_gather close bound' rest
          exact ih (hle.trans hrest) (hle.trans hrest')
        rw [gather, gather]
        simp only [hblock, hlater]

/-- A token that opens no block is a component value. -/
theorem ofTokens_single (ht : t.closing? = none) : ofTokens (t :: rest) = .single t :: ofTokens rest := by
  rw [ofTokens, List.length_cons, gather, if_neg nofun]
  split
  · rfl
  · next heq => rw [ht] at heq; cases heq

/-- Up to the closing token stand tokens that neither open nor close a block. -/
theorem gather_block {close : Token} (hts : ∀ t ∈ ts, t.closing? = none ∧ t ≠ close)
    (hbound : (ts ++ close :: rest).length ≤ bound) :
    gather (some close) bound (ts ++ close :: rest) = (ts.map .single, rest) := by
  induction ts generalizing bound with
  | nil =>
    cases bound with
    | zero => simp at hbound
    | succ bound => rw [List.nil_append, gather, if_pos rfl, List.map_nil]
  | cons t ts ih =>
    obtain ⟨ht, hne⟩ := hts t List.mem_cons_self
    have hothers := fun x hx => hts x (List.mem_cons_of_mem t hx)
    cases bound with
    | zero => simp at hbound
    | succ bound =>
      have hrest : (ts ++ close :: rest).length ≤ bound := Nat.le_of_succ_le_succ hbound
      rw [List.cons_append, gather, if_neg (fun heq => hne (Option.some.inj heq).symm)]
      split
      · rw [ih hothers hrest, List.map_cons]
      · next heq => rw [ht] at heq; cases heq

/-- An opening token, tokens that neither open nor close a block, and the closing token are a block. -/
theorem ofTokens_block {close : Token} (ht : t.closing? = some close)
    (hts : ∀ t ∈ ts, t.closing? = none ∧ t ≠ close) :
    ofTokens (t :: (ts ++ close :: rest)) = .block t (ts.map .single) :: ofTokens rest := by
  rw [ofTokens, List.length_cons, gather, if_neg nofun]
  split
  · next heq => rw [ht] at heq; cases heq
  · next close' heq =>
    obtain rfl : close = close' := Option.some.inj (ht.symm.trans heq)
    have hrest : rest.length ≤ (ts ++ close :: rest).length := by
      simp only [List.length_append, List.length_cons]
      omega
    rw [gather_block hts (Nat.le_refl _)]
    dsimp only
    rw [gather_eq_of_le hrest]
    rfl

/-- Without a comma there is one part. -/
theorem splitAtCommas_of_not_comma {vs : List ComponentValue} (h : ∀ v ∈ vs, v.isToken .comma = false) :
    splitAtCommas vs = [vs] := by
  induction vs with
  | nil => rfl
  | cons v vs ih =>
    rw [splitAtCommas, h v List.mem_cons_self, ih fun x hx => h x (List.mem_cons_of_mem v hx)]
    rfl

end ComponentValue

open ComponentValue (skipSpace)

variable {vs rest : List ComponentValue} {result : List Simple} {nested : Restriction → Reader Complex}
  {restriction : Restriction}

/-! ### Simple selectors -/

/-- Component values are read as conditions, whatever stands behind them and however selectors inside them are
read; and there is no comma among them. -/
structure ReadsConditions (vs : List ComponentValue) (result : List Simple) : Prop where
  read : ∀ nested restriction rest, simpleSelector nested restriction (vs ++ rest) = .ok (some result, rest)
  noComma : ∀ v ∈ vs, v.isToken .comma = false

/-- A hash token is read as the condition on the identifier. -/
theorem readsConditions_id (name : String) : ReadsConditions [.single (.idHash name)] [.id name] where
  read _ _ _ := rfl
  noComma := by simp [ComponentValue.isToken]

/-- A point and a name are read as the condition on the class. -/
theorem readsConditions_class (name : String) :
    ReadsConditions [.single (.delim '.'), .single (.ident name)] [.class name] where
  read _ _ _ := rfl
  noComma := by simp [ComponentValue.isToken]

/-- An attribute whose value equals a string; for some attributes letter case does not count. -/
theorem readsConditions_attribute (name value : String) :
    ReadsConditions [.block .openSquare [.single (.ident name), .single (.delim '='), .single (.quotedString value)]]
      [.attribute false name (.value .equals value (caselessAttributes.contains (Text.lower name)))] where
  read _ _ _ := rfl
  noComma := by simp [ComponentValue.isToken]

/-- The place among the siblings with the same tag. -/
theorem readsConditions_nthOfType {number : Numeric} {k : Int} (hk : number.integer = some k) :
    ReadsConditions [.single .colon, .block (.function "nth-of-type") [.single (.number number)]]
      [.nth ⟨0, k, true, false⟩] := by
  refine ⟨fun nested restriction rest => ?_, by simp [ComponentValue.isToken]⟩
  obtain ⟨signed, value, integer⟩ := number
  obtain rfl : integer = some k := hk
  have hold : isOldPseudoElement "nth-of-type" = false := by decide
  have hlower : Text.lower "nth-of-type" = "nth-of-type" := by decide
  have hplaces : nthPseudoClass true false [.single (.number ⟨signed, value, some k⟩)] =
      .ok [.nth ⟨0, k, true, false⟩] := rfl
  have hfunctional : functionalPseudoClass nested restriction "nth-of-type"
      [.single (.number ⟨signed, value, some k⟩)] = .ok [.nth ⟨0, k, true, false⟩] := by
    rw [functionalPseudoClass, hlower]
    exact hplaces
  simp only [List.cons_append, List.nil_append, simpleSelector, pseudo, hold, Bool.or_self, hfunctional, bind,
    Except.bind]
  rfl

/-! ### Compounds -/

/-- Behind a compound there is nothing, or white space. -/
def CompoundEnds (rest : List ComponentValue) : Prop := ∀ v ∈ rest.head?, v.isWhiteSpace = true

/-- White space is no simple selector. -/
theorem simpleSelector_of_compoundEnds (h : CompoundEnds rest) :
    simpleSelector nested restriction rest = .ok (none, rest) := by
  unfold simpleSelector
  split <;> first
    | rfl
    | exact absurd (h _ rfl) (by simp [ComponentValue.isWhiteSpace, ComponentValue.head, Token.isWhiteSpace])

/-- Simple selectors do not begin with a namespace separator. -/
theorem ReadsConditions.head_ne (h : ReadsConditions vs result) :
    ∃ v more, vs = v :: more ∧ v ≠ .single (.delim '|') := by
  have hread := h.read (fun _ _ => .error .endOfInput) {} []
  cases vs with
  | nil => exact absurd (Except.ok.inj hread) (by simp)
  | cons v more =>
    refine ⟨v, more, rfl, ?_⟩
    rintro rfl
    exact absurd (Except.ok.inj hread) (by simp)

/-- Component values that are read as conditions, with those conditions. -/
abbrev Piece := List ComponentValue × List Simple

variable {bound : Nat} {pieces : List Piece}

/-- Pieces that are read as conditions are read one after the other up to the end of the compound. -/
theorem simpleSelectors_append (hpieces : ∀ p ∈ pieces, ReadsConditions p.1 p.2) (hbound : pieces.length ≤ bound)
    (hrest : CompoundEnds rest) :
    simpleSelectors nested restriction bound (pieces.flatMap Prod.fst ++ rest) =
      .ok (pieces.flatMap Prod.snd, rest) := by
  induction pieces generalizing bound with
  | nil =>
    cases bound with
    | zero => rfl
    | succ bound =>
      simp only [List.flatMap_nil, List.nil_append, simpleSelectors, simpleSelector_of_compoundEnds hrest, bind,
        Except.bind]
  | cons p pieces ih =>
    cases bound with
    | zero => exact absurd hbound (Nat.not_succ_le_zero _)
    | succ bound =>
      have hp := (hpieces p List.mem_cons_self).read nested restriction (pieces.flatMap Prod.fst ++ rest)
      have hothers := ih (fun q hq => hpieces q (List.mem_cons_of_mem p hq)) (Nat.le_of_succ_le_succ hbound)
      simp only [List.flatMap_cons, List.append_assoc, simpleSelectors, hp, hothers, bind, Except.bind]

/-- There are no more pieces than values in them, since no piece is empty. -/
theorem length_le_flatMap_fst (hpieces : ∀ p ∈ pieces, ReadsConditions p.1 p.2) :
    pieces.length ≤ (pieces.flatMap Prod.fst).length := by
  induction pieces with
  | nil => exact Nat.le_refl _
  | cons p pieces ih =>
    obtain ⟨v, more, heq, -⟩ := (hpieces p List.mem_cons_self).head_ne
    have hothers := ih fun q hq => hpieces q (List.mem_cons_of_mem p hq)
    rw [List.flatMap_cons, heq, List.length_append, List.length_cons, List.length_cons]
    omega

/-- A tag with simple selectors behind it. -/
structure Compound where
  tag : String
  pieces : List Piece

namespace Compound

/-- The component values that write the compound. -/
def values (c : Compound) : List ComponentValue := .single (.ident c.tag) :: c.pieces.flatMap Prod.fst

/-- The conditions of the compound. -/
def conditions (c : Compound) : List Simple := .type c.tag :: c.pieces.flatMap Prod.snd

/-- Every piece is read as its conditions. -/
def Readable (c : Compound) : Prop := ∀ p ∈ c.pieces, ReadsConditions p.1 p.2

variable {c : Compound}

/-- The tag of a compound is read in front of its conditions. -/
theorem typeSelector_values (hc : c.Readable) (hrest : CompoundEnds rest) :
    typeSelector (c.values ++ rest) = .ok (some (.type c.tag), c.pieces.flatMap Prod.fst ++ rest) := by
  have hbar : ∀ v ∈ (c.pieces.flatMap Prod.fst ++ rest).head?, v ≠ .single (.delim '|') := by
    cases hpieces : c.pieces with
    | nil =>
      rintro v hv rfl
      exact absurd (hrest _ hv) (by simp [ComponentValue.isWhiteSpace, ComponentValue.head, Token.isWhiteSpace])
    | cons p pieces =>
      obtain ⟨v, more, heq, hv⟩ := (hc p (hpieces ▸ List.mem_cons_self)).head_ne
      rw [List.flatMap_cons, heq]
      intro w hw
      cases hw
      exact hv
  rw [values, List.cons_append]
  cases hmore : c.pieces.flatMap Prod.fst ++ rest with
  | nil => rfl
  | cons v more =>
    rw [hmore] at hbar
    have hv : v ≠ .single (.delim '|') := hbar v rfl
    unfold typeSelector
    split
    · next heq => exact absurd (List.cons.inj (List.cons.inj heq).2).1 hv
    · next heq =>
      cases heq
      rfl
    · next heq => cases heq
    · next heq => cases heq
    · next heq => cases heq
    · next hident _ _ _ => exact absurd rfl (hident _ _)

/-- The compound is read up to the white space behind it; white space in front of it is skipped. -/
theorem compound_values (hc : c.Readable) (hrest : CompoundEnds rest) (hvs : skipSpace vs = c.values ++ rest) :
    compound nested restriction vs = .ok (c.conditions, rest) := by
  have hbound : c.pieces.length ≤ (c.pieces.flatMap Prod.fst ++ rest).length := by
    rw [List.length_append]
    exact (length_le_flatMap_fst hc).trans (Nat.le_add_right _ _)
  simp only [compound, hvs, typeSelector_values hc hrest, simpleSelectors_append hc hbound hrest, bind, Except.bind]
  rfl

/-- No value of a readable compound is a comma. -/
theorem not_comma_of_mem_values (hc : c.Readable) : ∀ v ∈ c.values, v.isToken .comma = false := by
  intro v hv
  rcases List.mem_cons.1 hv with rfl | hv
  · rfl
  · obtain ⟨p, hp, hv⟩ := List.mem_flatMap.1 hv
    exact (hc p hp).noComma v hv

end Compound

/-! ### Complex selectors -/

/-- Compounds joined by one kind of combinator. -/
def joinWith (joint : Combinator) (first : Compound) (others : List Compound) : Complex :=
  others.foldl (fun left c => .combine left joint c.conditions) (.compound first.conditions)

/-- One blank. -/
def blank : ComponentValue := .single (.whiteSpace " ")

/-- Between two compounds, the component values are read as a combinator. They begin with white space, so that the
compound in front of them ends there. -/
structure Joins (joint : Combinator) (vs : List ComponentValue) : Prop where
  space : ∃ more, vs = blank :: more
  noComma : ∀ v ∈ vs, v.isToken .comma = false
  read : ∀ (c : Compound) (rest : List ComponentValue), ∃ later,
    combinator (vs ++ (c.values ++ rest)) = (some joint, later) ∧ skipSpace later = c.values ++ rest

/-- A blank joins as the descendant combinator. -/
theorem joins_descendant : Joins .descendant [blank] where
  space := ⟨[], rfl⟩
  noComma := by simp [blank, ComponentValue.isToken]
  read _ _ := ⟨_, rfl, rfl⟩

/-- An arrow between blanks joins as the child combinator. -/
theorem joins_child : Joins .child [blank, .single (.delim '>'), blank] where
  space := ⟨_, rfl⟩
  noComma := by simp [blank, ComponentValue.isToken]
  read _ _ := ⟨_, rfl, rfl⟩

variable {joint : Combinator}

/-- Where compounds are joined, each of them ends in front of what joins the next. -/
theorem Joins.compoundEnds (h : Joins joint vs) (others : List Compound) :
    CompoundEnds (others.flatMap fun c => vs ++ c.values) := by
  obtain ⟨more, rfl⟩ := h.space
  cases others with
  | nil => exact nofun
  | cons c others =>
    rw [List.flatMap_cons]
    intro v hv
    cases hv
    rfl

/-- There are no more joined compounds than values that write them. -/
theorem Joins.length_le (h : Joins joint vs) (others : List Compound) :
    others.length ≤ (others.flatMap fun c => vs ++ c.values).length := by
  obtain ⟨more, rfl⟩ := h.space
  induction others with
  | nil => exact Nat.le_refl _
  | cons c others ih =>
    rw [List.flatMap_cons, List.length_append, List.length_append, List.length_cons, List.length_cons]
    omega

/-- No value of joined compounds is a comma. -/
theorem Joins.not_comma (h : Joins joint vs) {others : List Compound} (hothers : ∀ c ∈ others, c.Readable) :
    ∀ v ∈ others.flatMap fun c => vs ++ c.values, v.isToken .comma = false := by
  intro v hv
  obtain ⟨c, hc, hv⟩ := List.mem_flatMap.1 hv
  rcases List.mem_append.1 hv with hv | hv
  · exact h.noComma v hv
  · exact Compound.not_comma_of_mem_values (hothers c hc) v hv

/-- Further compounds are read behind their combinators. -/
theorem Joins.complexRest_append (h : Joins joint vs) {others : List Compound} (hothers : ∀ c ∈ others, c.Readable)
    (hbound : others.length ≤ bound) (left : Complex) (hfree : restriction.noCombinators = false) :
    complexRest nested restriction bound left (others.flatMap fun c => vs ++ c.values) =
      .ok (others.foldl (fun left c => .combine left joint c.conditions) left, []) := by
  induction others generalizing bound left with
  | nil => cases bound <;> rfl
  | cons c others ih =>
    cases bound with
    | zero => exact absurd hbound (Nat.not_succ_le_zero _)
    | succ bound =>
      have hmore := ih (fun x hx => hothers x (List.mem_cons_of_mem c hx)) (Nat.le_of_succ_le_succ hbound)
        (.combine left joint c.conditions)
      obtain ⟨later, hcombinator, hlater⟩ := h.read c (others.flatMap fun c => vs ++ c.values)
      have hcompound : compound nested restriction later = .ok (c.conditions, _) :=
        Compound.compound_values (hothers c List.mem_cons_self) (h.compoundEnds others) hlater
      have hne : c.conditions.isEmpty = false := rfl
      simp only [List.flatMap_cons, List.append_assoc, complexRest, hcombinator, hfree, Bool.false_eq_true, if_false,
        hcompound, hne, hmore, bind, Except.bind, List.foldl_cons]

/-- Compounds with a combinator between each two of them are read as a complex selector. -/
theorem Joins.ofValues (h : Joins joint vs) {first : Compound} {others : List Compound} (hfirst : first.Readable)
    (hothers : ∀ c ∈ others, c.Readable) :
    SelectorList.ofValues (first.values ++ others.flatMap fun c => vs ++ c.values) =
      .ok [joinWith joint first others] := by
  have hcomma : ∀ v ∈ first.values ++ others.flatMap fun c => vs ++ c.values, v.isToken .comma = false :=
    List.forall_mem_append.2 ⟨Compound.not_comma_of_mem_values hfirst, h.not_comma hothers⟩
  have hne : first.conditions.isEmpty = false := rfl
  have hcompound : ∀ nested, compound nested {} (first.values ++ others.flatMap fun c => vs ++ c.values) =
      .ok (first.conditions, others.flatMap fun c => vs ++ c.values) := fun nested =>
    Compound.compound_values hfirst (h.compoundEnds others) rfl
  have hrest : ∀ nested, complexRest nested {} (others.flatMap fun c => vs ++ c.values).length
      (.compound first.conditions) (others.flatMap fun c => vs ++ c.values) =
        .ok (joinWith joint first others, []) := fun nested =>
    h.complexRest_append hothers (h.length_le others) _ rfl
  simp only [SelectorList.ofValues, selectorList, ComponentValue.splitAtCommas_of_not_comma hcomma, List.mapM_cons,
    List.mapM_nil, complexWithin, complex, hcompound, hne, hrest, bind, Except.bind]
  rfl

end ElementLocator.Css
