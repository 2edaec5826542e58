import ElementLocator.Proofs.Text.Words
import ElementLocator.Proofs.XPath.Lexing
import ElementLocator.Proofs.XPath.Reading
import ElementLocator.XPath.Evaluation

/-!
# Literals give back their text

The written form of a text is one literal, or a call of `concat` over literals if the text has both kinds of marks.
Reading it gives an expression whose value is the text, whatever the text is.
-/

namespace ElementLocator.XPath

/-- The texts that `concat` puts together for a text with both kinds of marks. -/
def concatParts (value : List Char) : List String :=
  ((Text.splitAtEach '\'' value).map String.ofList).intersperse "'"

/-- A text needs `concat`: it has both kinds of marks. -/
def needsConcat (value : List Char) : Bool := value.contains '\'' && value.contains '"'

/-- The tokens of the written form of a text. -/
def literalTokens (value : List Char) : List Token :=
  if needsConcat value then
    .name "concat" :: .leftParen ::
      ([Token.comma].intercalate ((concatParts value).map fun part => [.literal part]) ++ [.rightParen])
  else [.literal (String.ofList value)]

/-- The expression that the written form of a text is read as. -/
def literalExpr (value : List Char) : Expr :=
  if needsConcat value then .call .concat ((concatParts value).map .literal) else .literal (String.ofList value)

/-! ### Writing -/

/-- The pieces of a text with a literal for the mark between them. -/
theorem spells_pieces {pieces : List (List Char)} (hne : pieces ≠ []) (hpieces : ∀ piece ∈ pieces, '\'' ∉ piece)
    {rest : List Char} {toks : List Token} (h : Spells rest toks) :
    Spells (", \"'\", ".toList.intercalate (pieces.map (enclose '\'')) ++ rest)
      ([Token.comma].intercalate (((pieces.map String.ofList).intersperse "'").map fun part => [.literal part]) ++
        toks) := by
  induction pieces with
  | nil => exact absurd rfl hne
  | cons piece pieces ih =>
    have hpiece := hpieces piece List.mem_cons_self
    cases pieces with
    | nil => simpa using Spells.literal (.inl rfl) hpiece h
    | cons next pieces =>
      have hothers := ih (by simp) fun p hp => hpieces p (List.mem_cons_of_mem piece hp)
      have hsep : ∀ tail, ", \"'\", ".toList ++ tail = ',' :: ' ' :: (enclose '"' ['\''] ++ ',' :: ' ' :: tail) :=
        fun _ => rfl
      have hcomma : punctuation? ',' = some .comma := rfl
      have hmark : Spells _ (.literal "'" :: .comma :: _) :=
        Spells.literal (.inr rfl) (by decide) (Spells.punctuation hcomma hothers.space)
      have hall := Spells.literal (.inl rfl) hpiece (Spells.punctuation hcomma hmark.space)
      have hmore :
          (((next :: pieces).map String.ofList).intersperse "'").map (fun part => [Token.literal part]) ≠ [] := by
        cases pieces <;> simp
      have htoks : (((piece :: next :: pieces).map String.ofList).intersperse "'").map
          (fun part => [Token.literal part]) = [.literal (String.ofList piece)] :: [.literal "'"] ::
            (((next :: pieces).map String.ofList).intersperse "'").map fun part => [Token.literal part] := rfl
      rw [htoks, List.intercalate_cons_cons, List.intercalate_cons_of_ne_nil hmore, List.map_cons, List.map_cons,
        List.intercalate_cons_cons, List.append_assoc, List.append_assoc, hsep]
      exact hall

/-- The written form of a text has the tokens of one literal or of one call. -/
theorem spells_literalFor (value : List Char) {rest : List Char} {toks : List Token} (h : Spells rest toks) :
    Spells (literalFor value ++ rest) (literalTokens value ++ toks) := by
  unfold literalFor literalTokens needsConcat
  cases hsingle : value.contains '\'' with
  | false => simpa using Spells.literal (.inl rfl) (by simpa using hsingle) h
  | true =>
    cases hdouble : value.contains '"' with
    | false => simpa using Spells.literal (.inr rfl) (by simpa using hdouble) h
    | true =>
      have hclosing : punctuation? ')' = some .rightParen := rfl
      have hopening : punctuation? '(' = some .leftParen := rfl
      have hpieces := spells_pieces (Text.splitAtEach_ne_nil '\'' value)
        (fun piece hpiece => Text.not_mem_of_mem_splitAtEach hpiece) (h.punctuation hclosing)
      have hplain : Text.isPlainChars "concat".toList = true := by decide
      have hall := Spells.name hplain (nameEnds_cons rfl) (Spells.punctuation hopening hpieces)
      rw [String.ofList_toList] at hall
      have htext : ∀ tail, "concat(".toList ++ tail = "concat".toList ++ '(' :: tail := fun _ => rfl
      simpa [concatParts, htext] using hall

/-! ### Reading -/

/-- A text with both quotation marks is written in two parts at least. -/
theorem length_concatParts {value : List Char} (h : needsConcat value = true) : 2 ≤ (concatParts value).length := by
  have hmark : 0 < value.count '\'' := by
    have hcontains := (Bool.and_eq_true_iff.1 h).1
    exact List.count_pos_iff.2 (by simpa using hcontains)
  rw [concatParts, List.length_intersperse, List.length_map, Text.length_splitAtEach]
  omega

/-- The written form of a text is read as one primary expression. -/
theorem reads_primary_literalFor {stop depth : Nat} (value : List Char) :
    Grammar.Reads (Grammar.primary stop (Grammar.expression stop (depth + 1))) (literalTokens value) (literalExpr value)
      Grammar.Anything := by
  unfold literalTokens literalExpr
  split
  · next hconcat =>
    have hlength := length_concatParts hconcat
    have hcall := @Grammar.reads_call stop (Grammar.expression stop (depth + 1)) "concat" .concat
      ((concatParts value).map fun part => ([.literal part], .literal part)) (by decide)
      ⟨by rw [List.length_map]; exact hlength, by rintro most ⟨⟩⟩
      (by
        intro a ha
        obtain ⟨part, -, rfl⟩ := List.mem_map.1 ha
        exact (Grammar.reads_literal part).expression)
      (by
        intro a ha
        obtain ⟨part, -, rfl⟩ := List.mem_map.1 ha
        exact ⟨_, [], rfl, by simp⟩)
    rw [List.map_map, List.map_map] at hcall
    exact hcall
  · exact Grammar.reads_literal _

/-- The written form of a text is read as its expression. -/
theorem reads_literalFor {stop depth : Nat} (value : List Char) :
    Grammar.Reads (Grammar.expression stop (depth + 2)) (literalTokens value) (literalExpr value) Grammar.Closes :=
  (reads_primary_literalFor value).expression

/-- Literals have their texts as values. -/
theorem evalAll_literals (d : Document) (focus : Focus) (parts : List String) :
    Expr.evalAll d focus (parts.map .literal) = parts.map .text := by
  induction parts with
  | nil => rw [List.map_nil, Expr.evalAll]; rfl
  | cons part parts ih => rw [List.map_cons, Expr.evalAll, Expr.eval, ih, List.map_cons]

/-- The parts of a text, joined again, are the text. -/
theorem join_concatParts (value : List Char) : String.join (concatParts value) = String.ofList value := by
  have hpieces : ∀ pieces : List (List Char),
      ((pieces.map String.ofList).intersperse "'").flatMap String.toList = ['\''].intercalate pieces := by
    intro pieces
    induction pieces with
    | nil => rfl
    | cons piece pieces ih =>
      cases pieces with
      | nil => simp
      | cons next pieces =>
        rw [List.map_cons, List.map_cons, List.intersperse_cons_cons, ← List.map_cons, List.flatMap_cons,
          List.flatMap_cons, ih, List.intercalate_cons_cons]
        simp
  rw [← String.toList_inj, String.toList_join, concatParts, hpieces, Text.intercalate_splitAtEach,
    String.toList_ofList]

/-- The value of the expression is the text, at every node. -/
theorem eval_literalExpr (d : Document) (focus : Focus) (value : List Char) :
    (literalExpr value).eval d focus = .text (String.ofList value) := by
  unfold literalExpr
  split
  · have htexts : (Value.toText ∘ Value.text) = id := rfl
    rw [Expr.eval, evalAll_literals, Function.apply, List.map_map, htexts, List.map_id, join_concatParts]
  · rw [Expr.eval]

end ElementLocator.XPath
