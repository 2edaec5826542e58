import ElementLocator.Proofs.Document.History
import ElementLocator.Proofs.XPath.Selection

/-!
# Comparisons with a truth value

To compare an expression with `true()` or `false()` is to ask whether it is true. An attribute that the node lacks is
the one exception: it is not true, and yet a comparison with it is false whatever stands on the other side. So a
comparison that asks for an attribute to be false keeps no node, neither one that has the attribute nor one that lacks
it.
-/

namespace ElementLocator.XPath

variable {d : Document} {e p q : Expr} {focus : Focus} {before after : List Expr}

/-- The value of the expression is a number: it is written as one, or it is the position or the size. -/
def Expr.isNumeric : Expr → Bool
  | .number _ => true
  | .call .position _ => true
  | .call .last _ => true
  | _ => false

/-- The call `true()` or `false()`. -/
def truthCall (b : Bool) : Expr := .call (if b then .alwaysTrue else .alwaysFalse) []

/-- The call `not(e)`. -/
def Expr.negation (e : Expr) : Expr := .call .not [e]

/-- The step with a predicate between others. -/
def Step.withPredicate (s : Step) (before : List Expr) (predicate : Expr) (after : List Expr) : Step :=
  { s with predicates := before ++ predicate :: after }

/-- Behind the predicates of a step, the expression keeps those of the nodes they have left for which it is true. -/
def TestsTruth (d : Document) (e : Expr) : Prop :=
  ∀ (s : Step) (m n : NodeId), n ∈ (s.withPredicate s.predicates e []).from d m ↔
    ∃ k, (s.from d m)[k]? = some n ∧ (e.eval d ⟨n, k + 1, (s.from d m).length⟩).truthy = true

/-- Wherever the one predicate stands, the other one in its place leaves the step the same nodes. -/
def Interchangeable (d : Document) (p q : Expr) : Prop :=
  ∀ (s : Step) (before after : List Expr) (n : NodeId),
    (s.withPredicate before p after).from d n = (s.withPredicate before q after).from d n

/-- Wherever the predicate stands, it leaves the step no node. -/
def KeepsNone (d : Document) (p : Expr) : Prop :=
  ∀ (s : Step) (before after : List Expr) (n : NodeId), (s.withPredicate before p after).from d n = []

/-! ### Values -/

/-- An empty set of nodes is not true. -/
theorem Value.truthy_of_isMissing : ∀ {v : Value}, v.isMissing = true → v.truthy = false
  | .attribute none, _ => rfl

/-- A comparison with a truth value looks at the truth of the other side, unless that is an empty set of nodes. -/
theorem Value.compare_boolean (negated b : Bool) (v : Value) :
    Value.compare negated v (.boolean b) = (!v.isMissing && ((v.truthy == b) != negated)) := by
  rw [Value.compare]
  cases v <;> simp [Value.isMissing, Value.equals, Value.truthy]

/-- Numbers come from numbers, positions and sizes alone. -/
theorem eval_ne_number (h : e.isNumeric = false) (value : Number) : e.eval d focus ≠ .number value := by
  cases e with
  | number value => cases h
  | call function arguments =>
    rw [Expr.eval]
    cases function with
    | position => cases h
    | last => cases h
    | _ => simp [Function.apply]
  | _ => simp [Expr.eval]

/-- Only an attribute can be an empty set of nodes. -/
theorem isMissing_eval_iff :
    (e.eval d focus).isMissing = true ↔ ∃ name, e = .attribute name ∧ d.attribute? focus.node name = none := by
  match e with
  | .attribute name =>
    rw [Expr.eval]
    cases hvalue : d.attribute? focus.node name <;> simp [Value.isMissing, hvalue]
  | .call function arguments =>
    rw [Expr.eval]
    cases function <;> simp [Function.apply, Value.isMissing]
  | .or _ _ | .and _ _ | .compare _ _ _ | .number _ | .literal _ => simp [Expr.eval, Value.isMissing]

/-! ### Predicates -/

/-- A predicate that is no number holds if it is true. -/
theorem holds_eq_truthy (h : e.isNumeric = false) : e.holds d focus = (e.eval d focus).truthy := by
  rw [Expr.holds]
  cases hvalue : e.eval d focus with
  | number value => exact absurd hvalue (eval_ne_number h value)
  | _ => rfl

/-- A call of a truth value has that value. -/
theorem eval_truthCall (b : Bool) : (truthCall b).eval d focus = .boolean b := by
  cases b <;> rfl

/-- A comparison with a truth value asks for the truth of the other side, unless that is a missing attribute. -/
theorem holds_compare_truthCall (negated b : Bool) (e : Expr) :
    (Expr.compare negated e (truthCall b)).holds d focus =
      (!(e.eval d focus).isMissing && (((e.eval d focus).truthy == b) != negated)) := by
  rw [holds_eq_truthy rfl, Expr.eval, eval_truthCall, Value.compare_boolean]
  rfl

/-- Not to be the one truth value is to be the other one. -/
theorem holds_compare_not (b : Bool) (e : Expr) :
    (Expr.compare true e (truthCall !b)).holds d focus = (Expr.compare false e (truthCall b)).holds d focus := by
  rw [holds_compare_truthCall, holds_compare_truthCall]
  cases b <;> cases (e.eval d focus).truthy <;> rfl

/-- To be equal to `true()` is to be true. -/
theorem holds_compare_true (h : e.isNumeric = false) :
    (Expr.compare false e (truthCall true)).holds d focus = e.holds d focus := by
  rw [holds_compare_truthCall, holds_eq_truthy h]
  cases hmissing : (e.eval d focus).isMissing with
  | true => simp [Value.truthy_of_isMissing hmissing]
  | false => simp

/-- A negation holds exactly if its expression is not true. -/
theorem holds_negation (e : Expr) : e.negation.holds d focus = !(e.eval d focus).truthy := by
  rw [holds_eq_truthy rfl, Expr.negation, Expr.eval, Expr.evalAll, Expr.evalAll]
  rfl

/-- To be equal to `false()` is not to be true, unless it is an attribute that the node lacks. -/
theorem holds_compare_false :
    (Expr.compare false e (truthCall false)).holds d focus =
      (!(e.eval d focus).isMissing && e.negation.holds d focus) := by
  rw [holds_compare_truthCall, holds_negation]
  cases (e.eval d focus).truthy <;> rfl

/-- Where nothing can be missing, to be equal to `false()` is not to be true. -/
theorem holds_compare_false_of_ne_attribute (h : ∀ name, e ≠ .attribute name) :
    (Expr.compare false e (truthCall false)).holds d focus = e.negation.holds d focus := by
  have hpresent : (e.eval d focus).isMissing = false := by
    rw [← Bool.not_eq_true, isMissing_eval_iff]
    intro hmissing
    obtain ⟨name, hname, -⟩ := hmissing
    exact h name hname
  rw [holds_compare_false, hpresent]
  rfl

/-- An attribute that the node has is true, and one that it lacks equals nothing. -/
theorem holds_attribute_compare_false (name : String) :
    (Expr.compare false (.attribute name) (truthCall false)).holds d focus = false := by
  rw [holds_compare_false, holds_negation, Expr.eval]
  cases d.attribute? focus.node name <;> rfl

/-! ### Steps -/

/-- A predicate that is no number asks whether the expression is true. -/
theorem testsTruth (d : Document) (h : e.isNumeric = false) : TestsTruth d e := by
  intro s m n
  have hfrom : (s.withPredicate s.predicates e []).from d m = keep d (s.from d m) e := from_concat s e m
  simp only [hfrom, mem_keep_iff, holds_eq_truthy h]

/-- Predicates that hold at the same places keep the same nodes. -/
theorem interchangeable_of_holds (h : ∀ focus, p.holds d focus = q.holds d focus) : Interchangeable d p q := by
  intro s before after n
  have hkeep : ∀ nodes, keep d nodes p = keep d nodes q := by
    intro nodes
    simp only [keep, h]
  simp only [Step.from, Step.withPredicate, List.foldl_append, List.foldl_cons, hkeep]

/-- Predicates keep nothing of nothing. -/
theorem foldl_keep_nil (predicates : List Expr) : predicates.foldl (keep d) [] = [] := by
  induction predicates with
  | nil => rfl
  | cons predicate rest ih => exact ih

/-- A predicate that never holds keeps nothing. -/
theorem keepsNone_of_holds (h : ∀ focus, p.holds d focus = false) : KeepsNone d p := by
  intro s before after n
  have hkeep : ∀ nodes, keep d nodes p = [] := by
    intro nodes
    simp [keep, h]
  simp only [Step.from, Step.withPredicate, List.foldl_append, List.foldl_cons, hkeep, foldl_keep_nil]

/-- For an expression `e` that is no number, `[e]` keeps the nodes for which `e` is true and `[not(e)]` those for which
it is not; `[e = true()]` and `[e != false()]` keep the same nodes as `[e]`. If `e` is no attribute, `[e = false()]` and
`[e != true()]` keep the same nodes as `[not(e)]`; for an attribute they keep none. -/
theorem comparison_with_truth (d : Document) (h : e.isNumeric = false) :
    (TestsTruth d e ∧ TestsTruth d e.negation ∧
      ∀ focus, (e.negation.eval d focus).truthy = !(e.eval d focus).truthy) ∧
    (Interchangeable d (.compare false e (truthCall true)) e ∧
      Interchangeable d (.compare true e (truthCall false)) e) ∧
    ((∀ name, e ≠ .attribute name) →
      Interchangeable d (.compare false e (truthCall false)) e.negation ∧
        Interchangeable d (.compare true e (truthCall true)) e.negation) ∧
    ((∃ name, e = .attribute name) →
      KeepsNone d (.compare false e (truthCall false)) ∧ KeepsNone d (.compare true e (truthCall true))) := by
  refine ⟨⟨testsTruth d h, testsTruth d rfl, fun focus => ?_⟩, ⟨?_, ?_⟩, ?_, ?_⟩
  · rw [← holds_eq_truthy rfl, holds_negation]
  · exact interchangeable_of_holds fun focus => holds_compare_true h
  · apply interchangeable_of_holds
    intro focus
    exact (holds_compare_not true e).trans (holds_compare_true h)
  · intro hattribute
    constructor
    · exact interchangeable_of_holds fun focus => holds_compare_false_of_ne_attribute hattribute
    · apply interchangeable_of_holds
      intro focus
      exact (holds_compare_not false e).trans (holds_compare_false_of_ne_attribute hattribute)
  · intro hattribute
    obtain ⟨name, rfl⟩ := hattribute
    constructor
    · exact keepsNone_of_holds fun focus => holds_attribute_compare_false name
    · apply keepsNone_of_holds
      intro focus
      exact (holds_compare_not false _).trans (holds_attribute_compare_false name)

/-- A paragraph with an identifier and one without. -/
def paragraphs : Document :=
  Document.empty.edits
    [.element "main", .append 0 1, .element "p", .setAttribute 2 "id" "x", .append 1 2, .element "p", .append 1 3]

/-- Of the two paragraphs `[@id != false()]` keeps the one that `[@id]` keeps. -/
theorem comparison_with_truth_paragraphs :
    (Expr.attribute "id").isNumeric = false ∧
      Interchangeable paragraphs (.compare true (.attribute "id") (truthCall false)) (.attribute "id") ∧
      KeepsNone paragraphs (.compare true (.attribute "id") (truthCall true)) ∧
      select paragraphs Document.root "//P[@id != false()]" = .ok [2] ∧
      select paragraphs Document.root "//P[@id]" = .ok [2] := by
  obtain ⟨-, ⟨-, hkept⟩, -, hnone⟩ := comparison_with_truth paragraphs (show (Expr.attribute "id").isNumeric = false from rfl)
  exact ⟨rfl, hkept, (hnone ⟨"id", rfl⟩).2, by cbv, by cbv⟩

/-- The paragraph without an identifier is kept by `[not(@id)]`, and neither by `[@id = false()]` nor by
`[@id != true()]`. -/
theorem not_interchangeable_negation_paragraphs :
    parse "//P[@id = false()]" = .ok ⟨true, [.anywhere,
      ⟨.child, .name "P", [.compare false (.attribute "id") (truthCall false)]⟩]⟩ ∧
    (Expr.attribute "id").isNumeric = false ∧
    select paragraphs Document.root "//P[not(@id)]" = .ok [3] ∧
    select paragraphs Document.root "//P[@id = false()]" = .ok [] ∧
    select paragraphs Document.root "//P[@id != true()]" = .ok [] ∧
    ¬Interchangeable paragraphs (.compare false (.attribute "id") (truthCall false)) (Expr.attribute "id").negation ∧
    ¬Interchangeable paragraphs (.compare true (.attribute "id") (truthCall true)) (Expr.attribute "id").negation := by
  refine ⟨by cbv, rfl, by cbv, by cbv, by cbv, ?_, ?_⟩
  · intro h
    have hsame := h ⟨.child, .name "P", []⟩ [] [] 1
    exact absurd hsame (by decide)
  · intro h
    have hsame := h ⟨.child, .name "P", []⟩ [] [] 1
    exact absurd hsame (by decide)

end ElementLocator.XPath
