import ElementLocator.Proofs.XPath.Lexing
import ElementLocator.Proofs.XPath.Reading

/-!
# Texts that write location paths

`Writes` says which tokens a text has, in front of any text that does not go on with a name. Such texts can be put one
behind the other, behind a tag they make a step, and steps with slashes between them are read as a location path.
-/

namespace ElementLocator.XPath

variable {cs cs' tag : List Char} {toks toks' : List Token} {k : Nat}

/-! ### Behind a tag -/

/-- The text has the tokens, whatever follows it that does not go on with a name; and the text itself does not go on
with a name. -/
structure Writes (cs : List Char) (toks : List Token) : Prop where
  spells : ∀ rest later, NameEnds rest → Spells rest later → Spells (cs ++ rest) (toks ++ later)
  ends : ∀ rest, NameEnds rest → NameEnds (cs ++ rest)

/-- Nothing writes no tokens. -/
theorem Writes.nil : Writes [] [] := ⟨fun _ _ _ h => h, fun _ hrest => hrest⟩

/-- Two written texts, one behind the other, write the tokens of both. -/
theorem Writes.append (h : Writes cs toks) (h' : Writes cs' toks') : Writes (cs ++ cs') (toks ++ toks') := by
  refine ⟨fun rest later hrest hlater => ?_, fun rest hrest => ?_⟩
  · rw [List.append_assoc, List.append_assoc]
    exact h.spells _ _ (h'.ends rest hrest) (h'.spells rest later hrest hlater)
  · rw [List.append_assoc]
    exact h.ends _ (h'.ends rest hrest)

/-- The tokens of predicates, each between brackets. -/
def bracketed (predicates : List (List Token × Expr)) : List Token :=
  predicates.flatMap fun predicate => .leftBracket :: predicate.1 ++ [.rightBracket]

/-- The place is the given one. -/
def placePredicate (k : Nat) : List Token × Expr := ([.number (Number.ofNat k)], .number (Number.ofNat k))

/-- A place writes its predicate in brackets. -/
theorem writes_place (hk : k ≠ 0) :
    Writes ("[".toList ++ Nat.toDigits 10 k ++ "]".toList) (bracketed [placePredicate k]) := by
  have htext : ∀ rest, "[".toList ++ Nat.toDigits 10 k ++ "]".toList ++ rest =
      '[' :: (Nat.toDigits 10 k ++ ']' :: rest) := fun rest => by simp
  refine ⟨fun rest later _ hlater => ?_, fun rest _ => ?_⟩
  · have hopening : punctuation? '[' = some .leftBracket := rfl
    have hclosing : punctuation? ']' = some .rightBracket := rfl
    rw [htext]
    exact Spells.punctuation hopening (Spells.number hk (hlater.punctuation hclosing))
  · rw [htext]
    exact nameEnds_cons rfl

/-- The predicate of a place is read as that predicate. -/
theorem reads_placePredicate {stop depth : Nat} (k : Nat) (hdepth : (placePredicate k).1.length ≤ depth) :
    Grammar.Reads (Grammar.expression stop depth) (placePredicate k).1 (placePredicate k).2 Grammar.Closes := by
  obtain ⟨depth, rfl⟩ : ∃ m, depth = m + 1 := Nat.exists_eq_add_of_le' hdepth
  exact (Grammar.reads_number _).expression

/-! ### Steps -/

/-- The text has the tokens, whatever follows it that does not go on with a name, and begins with a letter. -/
structure WritesStep (cs : List Char) (toks : List Token) : Prop where
  spells : ∀ rest later, NameEnds rest → Spells rest later → Spells (cs ++ rest) (toks ++ later)
  starts : ∃ c more, cs = c :: more ∧ c.isAlpha = true
  ne_nil : toks ≠ []

/-- A plain tag with a text behind it. -/
theorem Writes.step (h : Writes cs toks) (hplain : Text.isPlainChars tag = true) :
    WritesStep (tag ++ cs) (.name (String.ofList tag) :: toks) := by
  obtain ⟨c, more, htag, hc, -⟩ := Text.isPlainChars_iff.1 hplain
  refine ⟨fun rest later hrest hlater => ?_, ⟨c, more ++ cs, by rw [htag]; rfl, hc⟩, List.cons_ne_nil _ _⟩
  rw [List.append_assoc, List.cons_append]
  exact Spells.name hplain (h.ends rest hrest) (h.spells rest later hrest hlater)

/-! ### Paths -/

variable {α : Type} {items : List α} {text : α → List Char} {tokensOf : α → List Token} {stepOf : α → Step}

/-- Steps with slashes between them. Each step starts with a letter, so that the slash in front of it is a single
one. -/
theorem spells_intercalate (hne : items ≠ []) (hitems : ∀ x ∈ items, WritesStep (text x) (tokensOf x)) :
    Spells (['/'].intercalate (items.map text)) ([Token.slash].intercalate (items.map tokensOf)) := by
  induction items with
  | nil => exact absurd rfl hne
  | cons x items ih =>
    have hx := hitems x List.mem_cons_self
    cases items with
    | nil =>
      have hends : NameEnds [] := nofun
      have hlast := hx.spells [] [] hends Spells.nil
      rw [List.append_nil, List.append_nil] at hlast
      rwa [List.map_singleton, List.map_singleton, List.intercalate_singleton, List.intercalate_singleton]
    | cons y items =>
      have hmore := ih (List.cons_ne_nil y items) fun z hz => hitems z (List.mem_cons_of_mem x hz)
      obtain ⟨c, more, hy, hc⟩ := (hitems y (List.mem_cons_of_mem x List.mem_cons_self)).starts
      rw [List.map_cons, hy, List.intercalate_cons_cons_left] at hmore
      have hall := hx.spells _ _ (nameEnds_cons rfl) (hmore.slash (Text.ne_of_kind hc (by decide)))
      rw [List.map_cons, List.map_cons, List.intercalate_cons_cons, hy, List.intercalate_cons_cons_left, List.map_cons,
        List.map_cons, List.intercalate_cons_cons, ← List.map_cons]
      simpa only [List.append_assoc, List.cons_append, List.nil_append] using hall

variable (hne : items ≠ []) (hitems : ∀ x ∈ items, WritesStep (text x) (tokensOf x))
  (hreads : ∀ stop, ∀ x ∈ items, Grammar.ReadsStep stop (tokensOf x) (stepOf x))

include hne hitems hreads

/-- Two slashes and the texts of steps with slashes between them are read as an absolute location path. -/
theorem parse_absolute : parse (String.ofList ('/' :: '/' :: ['/'].intercalate (items.map text))) =
    .ok ⟨true, .anywhere :: items.map stepOf⟩ := by
  obtain ⟨placed, hplaced, hmap⟩ := (spells_intercalate hne hitems).doubleSlash 0
  rw [parse, String.toList_ofList]
  simp only [hplaced, bind, Except.bind]
  exact Grammar.ofTokens_path (.absolute .double (.intercalate hne (hreads _))) hmap

/-- With a point in front they are read as a relative one. -/
theorem parse_relative : parse (String.ofList ('.' :: '/' :: '/' :: ['/'].intercalate (items.map text))) =
    .ok ⟨false, .here :: .anywhere :: items.map stepOf⟩ := by
  obtain ⟨placed, hplaced, hmap⟩ := (spells_intercalate hne hitems).doubleSlash.dot 0
  rw [parse, String.toList_ofList]
  simp only [hplaced, bind, Except.bind]
  exact Grammar.ofTokens_path (.relative (.cons Grammar.reads_dot .double (.intercalate hne (hreads _)))) hmap

end ElementLocator.XPath
