import ElementLocator.XPath.Path.Parser
import ElementLocator.Proofs.XPath.Derivation

/-!
# What the readers of the grammar make of tokens

`Reads` says that a reader takes given tokens off the front and answers with a given result, whatever stands behind
them, as long as that does not continue what was read. There is one law for each construct: the pieces of a construct
are read, so the construct is read.
-/

namespace ElementLocator.XPath.Grammar

variable {α : Type}

/-- The reader takes the tokens off the front if what is left meets the condition. -/
def Reads (reader : Reader α) (toks : List Token) (result : α) (ends : List Placed → Prop) : Prop :=
  ∀ placed rest, placed.map Placed.token = toks → ends rest → reader (placed ++ rest) = .ok (result, rest)

/-- Nothing that is left can continue the construct. -/
def Anything (_ : List Placed) : Prop := True

/-- What is left does not compare the expression with another one. -/
def NoComparison (rest : List Placed) : Prop := ∀ t ∈ rest.head?, t.token ≠ .equals ∧ t.token ≠ .notEquals

/-- What is left closes a bracket or a parenthesis, or goes on to the next argument. -/
def Closes (rest : List Placed) : Prop :=
  ∀ t ∈ rest.head?, t.token = .rightBracket ∨ t.token = .rightParen ∨ t.token = .comma

/-- What is left goes on to the next step. -/
def StepEnds (rest : List Placed) : Prop := ∀ t ∈ rest.head?, t.token = .slash ∨ t.token = .doubleSlash

variable {stop bound : Nat} {nested : Reader Expr} {toks : List Token} {e : Expr}

/-- Items each of which has tokens of its own are no more than the tokens. -/
theorem length_le_of_flatMap {β : Type} {f : β → List Token} (hf : ∀ a, f a ≠ []) {items : List β}
    {placed : List Placed} (h : placed.map Placed.token = items.flatMap f) (rest : List Placed) :
    items.length ≤ (placed ++ rest).length := by
  have hle : items.length ≤ (items.flatMap f).length := by
    have hsum := List.length_le_sum_of_one_le (items.map fun a => (f a).length) fun k hk => by
      obtain ⟨a, -, rfl⟩ := List.mem_map.1 hk
      exact List.length_pos_iff.2 (hf a)
    rwa [List.length_map, ← List.length_flatMap] at hsum
  rw [← h, List.length_map] at hle
  rw [List.length_append]
  exact hle.trans (Nat.le_add_right _ _)

/-- Placed tokens that begin with a token have it in front, at some offset. -/
theorem placed_cons {t : Token} {placed : List Placed} (h : placed.map Placed.token = t :: toks) :
    ∃ offset later, placed = ⟨t, offset⟩ :: later ∧ later.map Placed.token = toks := by
  obtain ⟨⟨t', offset⟩, later, rfl, rfl, hlater⟩ := List.map_eq_cons_iff.1 h
  exact ⟨offset, later, rfl, hlater⟩

/-- One placed token stands alone, at some offset. -/
theorem placed_singleton {t : Token} {placed : List Placed} (h : placed.map Placed.token = [t]) :
    ∃ offset, placed = [⟨t, offset⟩] := by
  obtain ⟨offset, later, rfl, hlater⟩ := placed_cons h
  exact ⟨offset, by rw [List.map_eq_nil_iff.1 hlater]⟩

/-! ### Primary expressions -/

/-- A number is read as its value. -/
theorem reads_number (value : Number) : Reads (primary stop nested) [.number value] (.number value) Anything := by
  intro placed rest hplaced _
  obtain ⟨offset, rfl⟩ := placed_singleton hplaced
  rfl

/-- A literal is read as its text. -/
theorem reads_literal (text : String) : Reads (primary stop nested) [.literal text] (.literal text) Anything := by
  intro placed rest hplaced _
  obtain ⟨offset, rfl⟩ := placed_singleton hplaced
  rfl

/-- An attribute is read with its name in lower case. -/
theorem reads_attribute (name : String) :
    Reads (primary stop nested) [.at, .name name] (.attribute (Text.lower name)) Anything := by
  intro placed rest hplaced _
  obtain ⟨offset, later, rfl, hlater⟩ := placed_cons hplaced
  obtain ⟨offset', rfl⟩ := placed_singleton hlater
  rfl

/-- Arguments with commas between them, and the parenthesis that closes the call. -/
theorem reads_arguments {args : List (List Token × Expr)} (hne : args ≠ [])
    (hargs : ∀ a ∈ args, Reads nested a.1 a.2 Closes) (hbound : args.length ≤ bound) :
    Reads (arguments stop nested bound) ([Token.comma].intercalate (args.map Prod.fst) ++ [.rightParen])
      (args.map Prod.snd) Anything := by
  induction args generalizing bound with
  | nil => exact absurd rfl hne
  | cons a args ih =>
    obtain ⟨bound, rfl⟩ : ∃ k, bound = k + 1 := Nat.exists_eq_succ_of_ne_zero (by simp at hbound; omega)
    intro placed rest hplaced _
    have ha := hargs a List.mem_cons_self
    cases args with
    | nil =>
      rw [List.map_singleton, List.intercalate_singleton] at hplaced
      obtain ⟨front, back, rfl, hfront, hback⟩ := List.map_eq_append_iff.1 hplaced
      obtain ⟨offset, rfl⟩ := placed_singleton hback
      rw [List.append_assoc, arguments,
        ha front _ hfront (by rintro t ⟨⟩; simp)]
      rfl
    | cons b args =>
      rw [List.map_cons, List.map_cons, List.intercalate_cons_cons, ← List.map_cons, List.append_assoc,
        List.append_assoc] at hplaced
      obtain ⟨front, back, rfl, hfront, hback⟩ := List.map_eq_append_iff.1 hplaced
      obtain ⟨offset, later, rfl, hlater⟩ := placed_cons hback
      have hothers := ih (by simp) (fun c hc => hargs c (List.mem_cons_of_mem a hc)) (Nat.le_of_succ_le_succ hbound)
        later rest hlater trivial
      rw [List.append_assoc, arguments, ha front _ hfront (by rintro t ⟨⟩; simp)]
      simp only [bind, Except.bind, List.cons_append, expect, if_true, hothers]
      rfl

/-- Between separators stand at least as many tokens as there are items. -/
theorem length_le_of_intercalate {args : List α} {tokensOf : α → List Token} (sep : Token)
    (hstart : ∀ a ∈ args, tokensOf a ≠ []) : args.length ≤ ([sep].intercalate (args.map tokensOf)).length := by
  induction args with
  | nil => simp
  | cons a args ih =>
    have ha := List.length_pos_iff.2 (hstart a List.mem_cons_self)
    have hothers := ih fun b hb => hstart b (List.mem_cons_of_mem a hb)
    cases args with
    | nil =>
      rw [List.map_singleton, List.intercalate_singleton]
      exact ha
    | cons b args =>
      rw [List.map_cons, List.map_cons, List.intercalate_cons_cons, ← List.map_cons, List.length_append,
        List.length_append, List.length_cons]
      omega

/-- A call of a known function with as many arguments as it takes. The first argument does not start with the
parenthesis that closes the call. -/
theorem reads_call {name : String} {function : Function} {args : List (List Token × Expr)}
    (hname : Function.ofName? name = some function) (htakes : function.Takes args.length)
    (hargs : ∀ a ∈ args, Reads nested a.1 a.2 Closes) (hopens : ∀ a ∈ args, Derives.Opens a.1) :
    Reads (primary stop nested)
      (.name name :: .leftParen :: ([Token.comma].intercalate (args.map Prod.fst) ++ [.rightParen]))
      (.call function (args.map Prod.snd)) Anything := by
  intro placed rest hplaced _
  obtain ⟨offset, later, rfl, hlater⟩ := placed_cons hplaced
  obtain ⟨offset', given, rfl, hgiven⟩ := placed_cons hlater
  have hcount := Function.takes_iff.1 htakes
  rw [← List.length_map Prod.snd] at hcount
  simp only [List.cons_append, primary, call, hname, bind, Except.bind]
  cases args with
  | nil =>
    obtain ⟨offset'', rfl⟩ := placed_singleton hgiven
    rw [List.map_nil] at hcount
    dsimp only [List.cons_append]
    rw [hcount]
    rfl
  | cons a args =>
    have hlength : (a :: args).length ≤ (given ++ rest).length := by
      have hsep : (a :: args).length ≤ ([Token.comma].intercalate ((a :: args).map Prod.fst)).length :=
        length_le_of_intercalate .comma fun b hb => by
          obtain ⟨t, ts, heq, -⟩ := hopens b hb
          simp [heq]
      have htotal := congrArg List.length hgiven
      simp only [List.length_map, List.length_append] at htotal ⊢
      omega
    have hread := @reads_arguments stop _ nested _ (List.cons_ne_nil a args) hargs hlength given rest hgiven trivial
    obtain ⟨t, ts, heq, ht⟩ := hopens a List.mem_cons_self
    rw [List.map_cons, heq, List.intercalate_cons_cons_left, List.cons_append] at hgiven
    obtain ⟨offset'', more, rfl, -⟩ := placed_cons hgiven
    rw [List.cons_append] at hread ⊢
    split
    · next hclosing => exact absurd (Placed.mk.inj (List.cons.inj hclosing).1).1 ht
    · rw [hread]
      dsimp only
      rw [hcount]
      rfl

/-- An expression in parentheses. -/
theorem reads_parentheses (h : Reads nested toks e Closes) :
    Reads (primary stop nested) (.leftParen :: toks ++ [.rightParen]) e Anything := by
  intro placed rest hplaced _
  obtain ⟨offset, later, rfl, hlater⟩ := placed_cons hplaced
  obtain ⟨inner, back, rfl, hinner, hback⟩ := List.map_eq_append_iff.1 hlater
  obtain ⟨offset', rfl⟩ := placed_singleton hback
  have hread := h inner (⟨.rightParen, offset'⟩ :: rest) hinner (by rintro t ⟨⟩; simp)
  rw [List.cons_append, List.append_assoc, List.singleton_append]
  simp only [primary, hread, bind, Except.bind, expect, if_true]

/-! ### Expressions -/

/-- A primary expression is read as a comparison, unless a sign of comparison comes next. -/
theorem Reads.comparison {toks : List Token} (h : Reads (primary stop nested) toks e Anything) :
    Reads (comparison stop nested) toks e NoComparison := by
  intro placed rest hplaced hrest
  simp only [Grammar.comparison, h placed rest hplaced trivial, bind, Except.bind]
  split
  · exact absurd rfl (hrest _ rfl).1
  · exact absurd rfl (hrest _ rfl).2
  · rfl

/-- Two primary expressions with a sign between them. -/
theorem reads_compare {us : List Token} {right : Expr} {sign : Token} {negated : Bool}
    (hleft : Reads (primary stop nested) toks e Anything) (hsign : Derives.Sign sign negated)
    (hright : Reads (primary stop nested) us right Anything) :
    Reads (Grammar.comparison stop nested) (toks ++ sign :: us) (.compare negated e right) NoComparison := by
  intro placed rest hplaced _
  obtain ⟨front, back, rfl, hfront, hback⟩ := List.map_eq_append_iff.1 hplaced
  obtain ⟨offset, later, rfl, hlater⟩ := placed_cons hback
  have hfirst := hleft front (⟨sign, offset⟩ :: later ++ rest) hfront trivial
  have hsecond := hright later rest hlater trivial
  rw [List.append_assoc, List.cons_append]
  rw [List.cons_append] at hfirst
  cases hsign <;> simp only [Grammar.comparison, hfirst, hsecond, bind, Except.bind]

/-- What is left does not go on with the keyword. -/
def NoKeyword (keyword : String) (rest : List Placed) : Prop := ∀ t ∈ rest.head?, t.token ≠ .name keyword

/-- Behind an item stands the next keyword, or what follows all items. -/
theorem ends_of_items {keyword : String} {ends : List Placed → Prop}
    (hends : ∀ offset rest, ends (⟨.name keyword, offset⟩ :: rest)) {items : List (List Token × Expr)}
    {back rest : List Placed} (hback : back.map Placed.token = items.flatMap fun i => .name keyword :: i.1)
    (hrest : ends rest) : ends (back ++ rest) := by
  cases items with
  | nil =>
    rw [List.map_eq_nil_iff.1 hback]
    exact hrest
  | cons i items =>
    obtain ⟨offset, others, rfl, -⟩ := placed_cons hback
    exact hends offset _

/-- Further items behind the keyword are joined from the left. -/
theorem reads_chainRest (keyword : String) (join : Expr → Expr → Expr) {item : Reader Expr}
    {ends : List Placed → Prop} (hends : ∀ offset rest, ends (⟨.name keyword, offset⟩ :: rest))
    {items : List (List Token × Expr)} (hitems : ∀ i ∈ items, Reads item i.1 i.2 ends) (hbound : items.length ≤ bound)
    (left : Expr) :
    Reads (chainRest keyword join item bound left) (items.flatMap fun i => .name keyword :: i.1)
      ((items.map Prod.snd).foldl join left) fun rest => ends rest ∧ NoKeyword keyword rest := by
  induction items generalizing bound left with
  | nil =>
    intro placed rest hplaced hrest
    rw [List.map_eq_nil_iff.1 hplaced]
    cases bound with
    | zero => rfl
    | succ bound =>
      simp only [List.nil_append, chainRest]
      split
      · next word offset later =>
        have hword : word ≠ keyword := fun heq => hrest.2 _ rfl (heq ▸ rfl)
        rw [if_neg hword]
        rfl
      · rfl
  | cons i items ih =>
    obtain ⟨bound, rfl⟩ : ∃ k, bound = k + 1 := Nat.exists_eq_succ_of_ne_zero (by simp at hbound; omega)
    intro placed rest hplaced hrest
    rw [List.flatMap_cons] at hplaced
    obtain ⟨front, back, rfl, hfront, hback⟩ := List.map_eq_append_iff.1 hplaced
    obtain ⟨offset, later, rfl, hlater⟩ := placed_cons hfront
    have hi := hitems i List.mem_cons_self later (back ++ rest) hlater (ends_of_items hends hback hrest.1)
    have hothers := ih (fun j hj => hitems j (List.mem_cons_of_mem i hj)) (Nat.le_of_succ_le_succ hbound)
      (join left i.2) back rest hback hrest
    rw [List.append_assoc, List.cons_append]
    simp only [chainRest, if_true, hi, bind, Except.bind, hothers]
    rfl

/-- Items with the keyword between them are joined from the left. -/
theorem reads_chain (keyword : String) (join : Expr → Expr → Expr) {item : Reader Expr} {ends : List Placed → Prop}
    (hends : ∀ offset rest, ends (⟨.name keyword, offset⟩ :: rest)) (first : List Token × Expr)
    (items : List (List Token × Expr)) (hfirst : Reads item first.1 first.2 ends)
    (hitems : ∀ i ∈ items, Reads item i.1 i.2 ends) :
    Reads (chain keyword join item) (first.1 ++ items.flatMap fun i => .name keyword :: i.1)
      ((items.map Prod.snd).foldl join first.2) fun rest => ends rest ∧ NoKeyword keyword rest := by
  intro placed rest hplaced hrest
  obtain ⟨front, back, rfl, hfront, hback⟩ := List.map_eq_append_iff.1 hplaced
  have hlength := length_le_of_flatMap (fun _ => List.cons_ne_nil _ _) hback rest
  rw [List.append_assoc, chain, hfirst front _ hfront (ends_of_items hends hback hrest.1)]
  exact reads_chainRest keyword join hends hitems hlength first.2 back rest hback hrest

/-- Comparisons joined by `and`. -/
theorem reads_conjunction {depth : Nat} (first : List Token × Expr) (others : List (List Token × Expr))
    (hfirst : Reads (Grammar.comparison stop (expression stop depth)) first.1 first.2 NoComparison)
    (hothers : ∀ i ∈ others, Reads (Grammar.comparison stop (expression stop depth)) i.1 i.2 NoComparison) :
    Reads (chain "and" .and (Grammar.comparison stop (expression stop depth)))
      (first.1 ++ others.flatMap fun i => .name "and" :: i.1) ((others.map Prod.snd).foldl .and first.2)
      fun rest => NoComparison rest ∧ NoKeyword "and" rest :=
  reads_chain "and" .and (by simp [NoComparison]) first others hfirst hothers

/-- These joined by `or` make an expression. -/
theorem reads_disjunction {depth : Nat} (first : List Token × Expr) (others : List (List Token × Expr))
    (hfirst : Reads (chain "and" .and (Grammar.comparison stop (expression stop depth))) first.1 first.2
      fun rest => NoComparison rest ∧ NoKeyword "and" rest)
    (hothers : ∀ i ∈ others, Reads (chain "and" .and (Grammar.comparison stop (expression stop depth))) i.1 i.2
      fun rest => NoComparison rest ∧ NoKeyword "and" rest) :
    Reads (expression stop (depth + 1)) (first.1 ++ others.flatMap fun i => .name "or" :: i.1)
      ((others.map Prod.snd).foldl .or first.2) Closes := by
  have hor := reads_chain "or" .or (by simp [NoComparison, NoKeyword]) first others hfirst hothers
  intro placed rest hplaced hrest
  have hstops : ∀ t ∈ rest.head?, ∀ s, t.token = s → s ≠ .equals ∧ s ≠ .notEquals ∧ ∀ word, s ≠ .name word := by
    rintro t ht s rfl
    rcases hrest t ht with h | h | h <;> simp [h]
  refine hor placed rest hplaced ⟨⟨fun t ht => ?_, fun t ht => ?_⟩, fun t ht => ?_⟩
  · exact ⟨(hstops t ht _ rfl).1, (hstops t ht _ rfl).2.1⟩
  · exact (hstops t ht _ rfl).2.2 _
  · exact (hstops t ht _ rfl).2.2 _

/-- Primary expressions joined by `and` make an expression. -/
theorem reads_primaries {depth : Nat} (first : List Token × Expr) (others : List (List Token × Expr))
    (hfirst : Reads (primary stop (expression stop depth)) first.1 first.2 Anything)
    (hothers : ∀ i ∈ others, Reads (primary stop (expression stop depth)) i.1 i.2 Anything) :
    Reads (expression stop (depth + 1)) (first.1 ++ others.flatMap fun i => .name "and" :: i.1)
      ((others.map Prod.snd).foldl .and first.2) Closes := by
  have hand := reads_conjunction first others hfirst.comparison fun i hi => (hothers i hi).comparison
  simpa using reads_disjunction (_, _) [] hand (by simp)

/-- A primary expression is an expression. -/
theorem Reads.expression {depth : Nat} (h : Reads (primary stop (expression stop depth)) toks e Anything) :
    Reads (expression stop (depth + 1)) toks e Closes := by
  simpa using reads_primaries (toks, e) [] h (by simp)

/-! ### Steps and paths -/

/-- Predicates in brackets, each of which is read at any depth that its length allows. -/
theorem reads_predicates {items : List (List Token × Expr)}
    (hitems : ∀ i ∈ items, ∀ depth, i.1.length ≤ depth → Reads (expression stop depth) i.1 i.2 Closes)
    (hbound : items.length ≤ bound) :
    Reads (predicates stop bound) (items.flatMap fun i => .leftBracket :: i.1 ++ [.rightBracket])
      (items.map Prod.snd) fun rest => ∀ t ∈ rest.head?, t.token ≠ .leftBracket := by
  induction items generalizing bound with
  | nil =>
    intro placed rest hplaced hrest
    rw [List.map_eq_nil_iff.1 hplaced]
    cases bound with
    | zero => rfl
    | succ bound =>
      simp only [List.nil_append, predicates]
      split
      · exact absurd rfl (hrest _ rfl)
      · rfl
  | cons i items ih =>
    obtain ⟨bound, rfl⟩ : ∃ k, bound = k + 1 := Nat.exists_eq_succ_of_ne_zero (by simp at hbound; omega)
    intro placed rest hplaced hrest
    rw [List.flatMap_cons, List.cons_append, List.cons_append, List.append_assoc] at hplaced
    obtain ⟨offset, inner, rfl, hinner⟩ := placed_cons hplaced
    obtain ⟨front, closing, rfl, hfront, hclosing⟩ := List.map_eq_append_iff.1 hinner
    obtain ⟨offset', back, rfl, hback⟩ := placed_cons hclosing
    have hlength : i.1.length ≤ (front ++ (⟨.rightBracket, offset'⟩ :: back ++ rest)).length := by
      rw [← hfront, List.length_map, List.length_append]
      omega
    have hi := hitems i List.mem_cons_self _ hlength front (⟨.rightBracket, offset'⟩ :: back ++ rest) hfront
      (by rintro t ⟨⟩; simp)
    have hothers := ih (fun j hj => hitems j (List.mem_cons_of_mem i hj)) (Nat.le_of_succ_le_succ hbound)
      back rest hback hrest
    simp only [List.cons_append, List.append_assoc, predicates, bind, Except.bind] at hi ⊢
    rw [hi]
    simp only [expect, if_true, hothers]
    rfl

/-- Where neither an axis is named nor a function called, a step goes to children. -/
theorem axis_none {ts : List Placed} (hts : ∀ t ∈ ts.tail.head?, t.token ≠ .colonColon) :
    axis ts = .ok (.child, ts) := by
  unfold axis
  split
  · exact absurd rfl (hts _ rfl)
  · rfl

/-- The axis of a step in front of a node test. -/
theorem reads_axis {ts us : List Token} {direction : Axis} {test : NodeTest} (haxis : Derives.AxisPart ts direction)
    (htest : Derives.Test us test) {placed rest : List Placed} (hplaced : placed.map Placed.token = ts ++ us)
    (hrest : ∀ t ∈ rest.head?, t.token ≠ .colonColon) :
    ∃ later, axis (placed ++ rest) = .ok (direction, later ++ rest) ∧ later.map Placed.token = us := by
  cases haxis with
  | named hname =>
    obtain ⟨offset, more, rfl, hmore⟩ := placed_cons hplaced
    obtain ⟨offset', later, rfl, hlater⟩ := placed_cons hmore
    refine ⟨later, ?_, hlater⟩
    simp only [List.cons_append, axis, hname]
  | none =>
    refine ⟨placed, axis_none fun t ht => ?_, hplaced⟩
    cases htest with
    | name | star =>
      obtain ⟨offset, rfl⟩ := placed_singleton hplaced
      exact hrest t ht
    | node =>
      obtain ⟨offset, later, rfl, hlater⟩ := placed_cons hplaced
      obtain ⟨offset', more, rfl, -⟩ := placed_cons hlater
      cases ht
      simp

/-- A node test that stands in front of no parenthesis. -/
theorem reads_nodeTest {us : List Token} {test : NodeTest} (htest : Derives.Test us test) :
    Reads (nodeTest stop) us test fun rest => ∀ t ∈ rest.head?, t.token ≠ .leftParen := by
  intro placed rest hplaced hrest
  cases htest with
  | star =>
    obtain ⟨offset, rfl⟩ := placed_singleton hplaced
    rfl
  | node =>
    obtain ⟨offset, later, rfl, hlater⟩ := placed_cons hplaced
    obtain ⟨offset', more, rfl, hmore⟩ := placed_cons hlater
    obtain ⟨offset'', rfl⟩ := placed_singleton hmore
    rfl
  | name tag =>
    obtain ⟨offset, rfl⟩ := placed_singleton hplaced
    cases rest with
    | nil => rfl
    | cons t rest =>
      obtain ⟨t, offset'⟩ := t
      have ht : t ≠ .leftParen := hrest _ rfl
      cases t <;> first | rfl | exact absurd rfl ht

/-- An axis and a node test start with neither abbreviation of a step. -/
theorem starts_of_test {ts us : List Token} {direction : Axis} {test : NodeTest}
    (haxis : Derives.AxisPart ts direction) (htest : Derives.Test us test) :
    ∃ t more, ts ++ us = t :: more ∧ t ≠ .dot ∧ t ≠ .dotDot := by
  cases haxis <;> cases htest <;> exact ⟨_, _, rfl, nofun, nofun⟩

/-- A step that is not abbreviated. -/
theorem step_full {ts : List Placed} (hts : ∀ t ∈ ts.head?, t.token ≠ .dot ∧ t.token ≠ .dotDot) :
    step stop ts = (do
      let (axis, rest) ← axis ts
      let (test, rest) ← nodeTest stop rest
      let (predicates, rest) ← predicates stop rest.length rest
      .ok (⟨axis, test, predicates⟩, rest)) := by
  unfold step
  split
  · exact absurd rfl (hts _ rfl).1
  · exact absurd rfl (hts _ rfl).2
  · rfl

/-- An axis, a node test and predicates make a step. Behind the node test stands a bracket, a slash or nothing, so that
it is read as no function and as no axis. -/
theorem reads_step {ts us : List Token} {direction : Axis} {test : NodeTest} {items : List (List Token × Expr)}
    (haxis : Derives.AxisPart ts direction) (htest : Derives.Test us test)
    (hitems : ∀ i ∈ items, ∀ depth, i.1.length ≤ depth → Reads (expression stop depth) i.1 i.2 Closes) :
    Reads (step stop) (ts ++ us ++ items.flatMap fun i => .leftBracket :: i.1 ++ [.rightBracket])
      ⟨direction, test, items.map Prod.snd⟩ StepEnds := by
  intro placed rest hplaced hrest
  obtain ⟨front, back, rfl, hfront, hback⟩ := List.map_eq_append_iff.1 hplaced
  have hlength := length_le_of_flatMap (fun _ => List.cons_ne_nil _ _) hback rest
  have hpredicates := reads_predicates hitems hlength back rest hback fun t ht => by
    rcases hrest t ht with h | h <;> simp [h]
  have hnext : ∀ t ∈ (back ++ rest).head?, t.token ≠ .colonColon ∧ t.token ≠ .leftParen := by
    intro t ht
    cases items with
    | nil =>
      rw [List.map_eq_nil_iff.1 hback, List.nil_append] at ht
      rcases hrest t ht with h | h <;> simp [h]
    | cons i items =>
      rw [List.flatMap_cons] at hback
      obtain ⟨offset, others, rfl, -⟩ := placed_cons hback
      cases ht
      simp
  obtain ⟨later, hdirection, hlater⟩ := reads_axis haxis htest hfront fun t ht => (hnext t ht).1
  have hread := @reads_nodeTest stop _ _ htest later _ hlater fun t ht => (hnext t ht).2
  have hstarts : ∀ t ∈ (front ++ (back ++ rest)).head?, t.token ≠ .dot ∧ t.token ≠ .dotDot := by
    obtain ⟨t, more, heq, ht⟩ := starts_of_test haxis htest
    rw [heq] at hfront
    obtain ⟨offset, others, rfl, -⟩ := placed_cons hfront
    rintro _ ⟨⟩
    exact ht
  rw [List.append_assoc, step_full hstarts]
  simp only [hdirection, hread, hpredicates, bind, Except.bind]

/-- The tokens are read as the step. -/
def ReadsStep (stop : Nat) (ts : List Token) (s : Step) : Prop := Reads (step stop) ts s StepEnds

variable {ts : List Token} {s : Step}

/-- A dot is read as the step that stays. -/
theorem reads_dot : ReadsStep stop [.dot] .here := by
  intro placed rest hplaced _
  obtain ⟨offset, rfl⟩ := placed_singleton hplaced
  rfl

/-- Two dots are read as the step to the parent. -/
theorem reads_dotDot : ReadsStep stop [.dotDot] .up := by
  intro placed rest hplaced _
  obtain ⟨offset, rfl⟩ := placed_singleton hplaced
  rfl

/-- A step has tokens, and the first of them is no slash. -/
theorem ReadsStep.starts (h : ReadsStep stop ts s) : ∃ t more, ts = t :: more ∧ t ≠ .slash ∧ t ≠ .doubleSlash := by
  have hread := h (ts.map (Placed.mk · 0)) [] (by simp [List.map_map, Function.comp_def]) nofun
  cases ts with
  | nil => cases hread
  | cons t more =>
    refine ⟨t, more, rfl, ?_, ?_⟩ <;> rintro rfl <;> cases hread

/-- Steps with slashes between them, up to the end of the query. -/
theorem reads_steps {steps : List Step} (h : Derives.RelPath (ReadsStep stop) ts steps) (hbound : ts.length ≤ bound)
    {placed : List Placed} (hplaced : placed.map Placed.token = ts) :
    Grammar.steps stop bound placed = .ok (steps, []) := by
  induction h generalizing bound placed with
  | step hfirst =>
    obtain ⟨t, more, rfl, -, -⟩ := hfirst.starts
    obtain ⟨bound, rfl⟩ : ∃ k, bound = k + 1 := Nat.exists_eq_succ_of_ne_zero (by simp at hbound; omega)
    have hread := hfirst placed [] hplaced nofun
    rw [List.append_nil] at hread
    simp only [Grammar.steps, hread, bind, Except.bind]
  | @cons _ _ _ _ _ separator hfirst hslash _ ih =>
    rw [List.length_append, List.length_cons] at hbound
    obtain ⟨bound, rfl⟩ : ∃ k, bound = k + 1 := Nat.exists_eq_succ_of_ne_zero (by omega)
    obtain ⟨front, back, rfl, hfront, hback⟩ := List.map_eq_append_iff.1 hplaced
    obtain ⟨offset, later, rfl, hlater⟩ := placed_cons hback
    have hread := hfirst front (⟨separator, offset⟩ :: later) hfront (by rintro t ⟨⟩; cases hslash <;> simp)
    have hothers := @ih bound (by omega) later hlater
    cases hslash <;> simp only [Grammar.steps, hread, bind, Except.bind, hothers] <;> rfl

/-- Steps have tokens, and the first of them is no slash. -/
theorem starts_of_relPath {steps : List Step} (h : Derives.RelPath (ReadsStep stop) ts steps) :
    ∃ t more, ts = t :: more ∧ t ≠ .slash ∧ t ≠ .doubleSlash := by
  cases h with
  | step hfirst => exact hfirst.starts
  | cons hfirst _ _ =>
    obtain ⟨t, more, rfl, ht⟩ := hfirst.starts
    exact ⟨t, _, List.cons_append, ht⟩

/-- What the grammar takes as a path is read as that path. A single slash with nothing behind it is the document
node. -/
theorem ofTokens_path {path : LocationPath} (h : Derives.Path (ReadsStep stop) ts path) {placed : List Placed}
    (hplaced : placed.map Placed.token = ts) : LocationPath.ofTokens stop placed = .ok path := by
  cases h with
  | root =>
    obtain ⟨offset, rfl⟩ := placed_singleton hplaced
    rfl
  | absolute hslash hsteps =>
    obtain ⟨offset, later, rfl, hlater⟩ := placed_cons hplaced
    have hread := reads_steps hsteps (Nat.le_of_eq (by rw [← hlater, List.length_map])) hlater
    obtain ⟨t, more, rfl, -⟩ := starts_of_relPath hsteps
    obtain ⟨offset', others, rfl, -⟩ := placed_cons hlater
    cases hslash <;> simp only [LocationPath.ofTokens, locationPath, hread, bind, Except.bind] <;> rfl
  | @relative _ others hsteps =>
    have hread := reads_steps hsteps (Nat.le_of_eq (by rw [← hplaced, List.length_map])) hplaced
    obtain ⟨t, more, rfl, ht⟩ := starts_of_relPath hsteps
    obtain ⟨offset, later, rfl, hlater⟩ := placed_cons hplaced
    have hpath : locationPath stop (⟨t, offset⟩ :: later) = .ok (⟨false, others⟩, []) := by
      unfold locationPath
      split
      · next heq => exact absurd (Placed.mk.inj (List.cons.inj heq).1).1 ht.2
      · next heq => exact absurd (Placed.mk.inj (List.cons.inj heq).1).1 ht.1
      · next heq => exact absurd (Placed.mk.inj (List.cons.inj heq).1).1 ht.1
      · rw [hread]
        rfl
    simp only [LocationPath.ofTokens, hpath, bind, Except.bind]

end ElementLocator.XPath.Grammar
