import ElementLocator.Proofs.XPath.Joining
import ElementLocator.Proofs.XPath.Semantics
import ElementLocator.Proofs.XPath.Truth

/-!
# The double slash and the descendants

`//T` goes to the node and everything below it first, and then to the children of all these that pass the test; the
step `descendant::T` goes below the node at once. Both find the same nodes where only the document node and elements
have children, since what stands below a node is a child of the node or of an element below it. The predicates of
`//T` see each node among the children of its parent and those of `descendant::T` see it among all descendants, so
this is the same only for predicates that ask neither for the position nor for the size.
-/

namespace ElementLocator.XPath

variable {d : Document} {e : Expr} {k m n : NodeId} {predicates : List Expr} {focus focus' : Focus}

mutual

/-- No part of the expression asks for the position or the size. -/
def Expr.ignoresPlace : Expr → Bool
  | .or left right => left.ignoresPlace && right.ignoresPlace
  | .and left right => left.ignoresPlace && right.ignoresPlace
  | .compare _ left right => left.ignoresPlace && right.ignoresPlace
  | .number _ => true
  | .literal _ => true
  | .attribute _ => true
  | .call function arguments => function != .position && function != .last && Expr.allIgnorePlace arguments

/-- None of the expressions asks for the position or the size. -/
def Expr.allIgnorePlace : List Expr → Bool
  | [] => true
  | e :: rest => e.ignoresPlace && Expr.allIgnorePlace rest

end

/-- The predicate is no number, and neither is nor contains a call of `position` or `last`. -/
def Expr.IsPlaceless (e : Expr) : Prop := e.isNumeric = false ∧ e.ignoresPlace = true

/-! ### Predicates without a place -/

/-- Only two functions look beyond the values of their arguments. -/
theorem Function.apply_congr {function : Function} (hposition : function ≠ .position) (hlast : function ≠ .last)
    (values : List Value) : function.apply focus values = function.apply focus' values := by
  cases function with
  | position => exact absurd rfl hposition
  | last => exact absurd rfl hlast
  | _ => rfl

mutual

/-- The value of an expression that ignores the place is the same at every position. By induction on the expression,
together with the lists of arguments. -/
theorem eval_eq_of_node (hnode : focus.node = focus'.node) :
    ∀ e : Expr, e.ignoresPlace = true → e.eval d focus = e.eval d focus'
  | .or left right, h | .and left right, h | .compare _ left right, h => by
    rw [Expr.ignoresPlace, Bool.and_eq_true] at h
    rw [Expr.eval, Expr.eval, eval_eq_of_node hnode left h.1, eval_eq_of_node hnode right h.2]
  | .number _, _ | .literal _, _ => by rw [Expr.eval, Expr.eval]
  | .attribute name, _ => by rw [Expr.eval, Expr.eval, hnode]
  | .call function arguments, h => by
    simp only [Expr.ignoresPlace, Bool.and_eq_true, bne_iff_ne] at h
    rw [Expr.eval, Expr.eval, evalAll_eq_of_node hnode arguments h.2]
    exact Function.apply_congr h.1.1 h.1.2 _

/-- Expressions that ignore places have the same values in all foci on a node. -/
theorem evalAll_eq_of_node (hnode : focus.node = focus'.node) :
    ∀ es : List Expr, Expr.allIgnorePlace es = true → Expr.evalAll d focus es = Expr.evalAll d focus' es
  | [], _ => by rw [Expr.evalAll, Expr.evalAll]
  | e :: rest, h => by
    rw [Expr.allIgnorePlace, Bool.and_eq_true] at h
    rw [Expr.evalAll, Expr.evalAll, eval_eq_of_node hnode e h.1, evalAll_eq_of_node hnode rest h.2]

end

/-- Whether a predicate without a place holds depends on the node alone. -/
theorem Expr.IsPlaceless.holds_eq (h : e.IsPlaceless) (hnode : focus.node = focus'.node) :
    e.holds d focus = e.holds d focus' := by
  rw [holds_eq_truthy h.1, holds_eq_truthy h.1, eval_eq_of_node hnode e h.2]

/-- The node meets a predicate wherever it stands. -/
def Meets (d : Document) (e : Expr) (n : NodeId) : Prop := ∀ focus : Focus, focus.node = n → e.holds d focus = true

/-- A placeless expression holds wherever its node meets it. -/
theorem Expr.IsPlaceless.holds_iff (h : e.IsPlaceless) (focus : Focus) :
    e.holds d focus = true ↔ Meets d e focus.node := by
  constructor
  · intro hholds other hnode
    rwa [h.holds_eq hnode]
  · intro hmeets
    exact hmeets focus rfl

/-- Predicates without a place keep the nodes that meet all of them. -/
theorem mem_foldl_keep (h : ∀ e ∈ predicates, e.IsPlaceless) {nodes : List NodeId} :
    n ∈ predicates.foldl (keep d) nodes ↔ n ∈ nodes ∧ ∀ e ∈ predicates, Meets d e n := by
  induction predicates generalizing nodes with
  | nil => simp
  | cons e predicates ih =>
    have hfirst := (h e List.mem_cons_self).holds_iff (d := d)
    rw [List.foldl_cons, ih fun e he => h e (List.mem_cons_of_mem _ he), mem_keep_of_node hfirst,
      List.forall_mem_cons, and_assoc]

/-- A step with such predicates takes the nodes on the axis that pass the test and meet all of them. -/
theorem mem_from_iff {axis : Axis} {test : NodeTest} (h : ∀ e ∈ predicates, e.IsPlaceless) :
    n ∈ (⟨axis, test, predicates⟩ : Step).from d m ↔
      n ∈ axis.nodes d m ∧ test.passes d n = true ∧ ∀ e ∈ predicates, Meets d e n := by
  rw [Step.from, mem_foldl_keep h, List.mem_filter, and_assoc]

/-! ### Descendants by way of their parents -/

/-- Where only the document node and elements have children and nothing stands above the document node, the elements
below a node are the children of what `//` leads to. Above the document node there is nothing, so a parent other than
the node itself is an element. -/
theorem mem_descendantElements_iff_child (h : d.Sound) (hnest : d.ElementsNest)
    (hroot : d.parent? Document.root = none) :
    n ∈ d.descendantElements k ↔ ∃ m ∈ Step.anywhere.from d k, n ∈ d.elementChildren m := by
  simp only [mem_from_anywhere, h.mem_descendantElements_iff, h.mem_elementChildren_iff]
  constructor
  · intro hn
    obtain ⟨⟨habove, hne⟩, helement⟩ := hn
    obtain ⟨m, hm, hk⟩ := (h.wellFormed.mem_lineage_iff.1 habove).resolve_left (Ne.symm hne)
    have hnests := hnest m n hm
    refine ⟨m, ⟨?_, hnests⟩, hm, helement⟩
    by_cases hmk : m = k
    · exact .inl hmk
    · have hm_element : d.isElement m = true := by
        apply hnests.resolve_left
        rintro rfl
        rw [Forest.WellFormed.lineage_of_parent_none hroot, List.mem_singleton] at hk
        exact hmk hk.symm
      exact .inr ⟨⟨hk, hmk⟩, hm_element⟩
  · intro hn
    obtain ⟨m, ⟨hm, -⟩, hparent, helement⟩ := hn
    have hk : k ∈ d.nodes.lineage m := by
      rcases hm with rfl | hm
      · exact Forest.WellFormed.self_mem_lineage d.nodes m
      · exact hm.1.1
    refine ⟨⟨h.wellFormed.mem_lineage_trans hk (h.wellFormed.parent_mem_lineage hparent), ?_⟩, helement⟩
    rintro rfl
    exact h.wellFormed.not_mem_lineage_parent hparent hk

/-! ### Paths -/

/-- Steps are taken one part after the other. -/
theorem reached_append {front back : List Step} :
    Reached d (front ++ back) m n ↔ ∃ k, Reached d front m k ∧ Reached d back k n := by
  induction front generalizing m with
  | nil => simp [Reached]
  | cons s front ih =>
    simp only [List.cons_append, Reached, ih]
    constructor
    · intro h
      obtain ⟨k, hk, j, hj, hn⟩ := h
      exact ⟨j, ⟨k, hk, hj⟩, hn⟩
    · intro h
      obtain ⟨j, ⟨k, hk, hj⟩, hn⟩ := h
      exact ⟨k, hk, j, hj, hn⟩

variable {test : NodeTest}

/-- One step below a node takes what two steps by way of the parents take. -/
theorem mem_from_descendant_iff (h : d.Sound) (hnest : d.ElementsNest) (hroot : d.parent? Document.root = none)
    (hpredicates : ∀ e ∈ predicates, e.IsPlaceless) : n ∈ (⟨.descendant, test, predicates⟩ : Step).from d k ↔
      ∃ m ∈ Step.anywhere.from d k, n ∈ (⟨.child, test, predicates⟩ : Step).from d m := by
  simp only [mem_from_iff hpredicates, Axis.nodes]
  rw [mem_descendantElements_iff_child h hnest hroot]
  constructor
  · intro hn
    obtain ⟨⟨m, hm, hchild⟩, hkept⟩ := hn
    exact ⟨m, hm, hchild, hkept⟩
  · intro hn
    obtain ⟨m, hm, hchild, hkept⟩ := hn
    exact ⟨⟨m, hm, hchild⟩, hkept⟩

/-- A path that ends with `//` and a step to children selects what the path with one step to descendants selects. -/
theorem select_anywhere_child (h : d.Sound) (hnest : d.ElementsNest) (hroot : d.parent? Document.root = none)
    {context : NodeId} (hcontext : Document.root ∈ d.nodes.lineage context)
    (hpredicates : ∀ e ∈ predicates, e.IsPlaceless) (absolute : Bool) (steps : List Step) :
    LocationPath.select d ⟨absolute, steps ++ [.anywhere, ⟨.child, test, predicates⟩]⟩ context =
      LocationPath.select d ⟨absolute, steps ++ [⟨.descendant, test, predicates⟩]⟩ context := by
  have hmem : ∀ n, n ∈ LocationPath.select d ⟨absolute, steps ++ [.anywhere, ⟨.child, test, predicates⟩]⟩ context ↔
      n ∈ LocationPath.select d ⟨absolute, steps ++ [⟨.descendant, test, predicates⟩]⟩ context := by
    intro n
    simp only [mem_select, reached_append, Reached, exists_eq_right',
      mem_from_descendant_iff h hnest hroot hpredicates]
  have hclimb : ∀ steps : List Step, ∀ s ∈ steps, s.axis = .parent → d.parent? Document.root = none :=
    fun _ _ _ _ => hroot
  rw [select_eq_filter h (hclimb _) hcontext (by simp)]
  conv_rhs => rw [select_eq_filter h (hclimb _) hcontext (by simp)]
  simp only [hmem]

/-- It selects what is below the nodes that the rest of the path selects, passes the test and meets the predicates. -/
theorem mem_select_descendant (hpredicates : ∀ e ∈ predicates, e.IsPlaceless) {absolute : Bool} {steps : List Step}
    {context : NodeId} :
    n ∈ LocationPath.select d ⟨absolute, steps ++ [⟨.descendant, test, predicates⟩]⟩ context ↔
      ∃ k ∈ LocationPath.select d ⟨absolute, steps⟩ context,
        n ∈ d.descendantElements k ∧ test.passes d n = true ∧ ∀ e ∈ predicates, Meets d e n := by
  simp only [mem_select, reached_append, Reached, exists_eq_right', mem_from_iff hpredicates, Axis.nodes]

/-- Both queries are read, and select the same elements in the same order. -/
def SelectSame (d : Document) (context : NodeId) (query other : String) : Prop :=
  ∃ found, select d context query = .ok found ∧ select d context other = .ok found

/-- Two queries select the same from a node if their paths do. -/
theorem selectSame_of_parse {context : NodeId} {query other : String} {path otherPath : LocationPath}
    (hquery : parse query = .ok path) (hother : parse other = .ok otherPath)
    (hsame : path.select d context = otherPath.select d context) : SelectSame d context query other := by
  refine ⟨(path.select d context).filter d.isElement, ?_, ?_⟩
  · rw [select, hquery]
    rfl
  · rw [select, hother, hsame]
    rfl

/-- Where only the document node and elements have children and the document node has no parent, a path that ends with
`//T` selects the same nodes as the path that ends with `/descendant::T`, as long as no predicate of the last step is
a number or asks for the position or the size: the elements below what the rest of the path selects that pass the test
and meet the predicates. So do the queries that write these paths, with any location path in front or with none. -/
theorem doubleSlash_abbreviates_descendant (hd : d.Built) (hnest : d.ElementsNest)
    (hroot : d.parent? Document.root = none) {context : NodeId} (hcontext : d.isAttached context = true)
    (test : NodeTest) (predicates : List Expr) (hpredicates : ∀ e ∈ predicates, e.IsPlaceless) :
    (∀ absolute steps,
      LocationPath.select d ⟨absolute, steps ++ [.anywhere, ⟨.child, test, predicates⟩]⟩ context =
        LocationPath.select d ⟨absolute, steps ++ [⟨.descendant, test, predicates⟩]⟩ context ∧
      ∀ n, n ∈ LocationPath.select d ⟨absolute, steps ++ [⟨.descendant, test, predicates⟩]⟩ context ↔
        ∃ k ∈ LocationPath.select d ⟨absolute, steps⟩ context,
          n ∈ d.descendantElements k ∧ test.passes d n = true ∧ ∀ e ∈ predicates, Meets d e n) ∧
    ∀ last, parse ("descendant::" ++ last) = .ok ⟨false, [⟨.descendant, test, predicates⟩]⟩ →
      SelectSame d context ("//" ++ last) ("/descendant::" ++ last) ∧
      ∀ front path, parse front = .ok path → path.steps ≠ [] →
        SelectSame d context (front ++ "//" ++ last) (front ++ "/descendant::" ++ last) := by
  have hselect := fun absolute steps => @select_anywhere_child d predicates test hd.sound hnest hroot context
    (Document.Sound.isAttached_iff.1 hcontext) hpredicates absolute steps
  refine ⟨fun absolute steps => ⟨hselect absolute steps, fun n => mem_select_descendant hpredicates⟩, ?_⟩
  intro last hdescendant
  have hchild : parse last = .ok ⟨false, [⟨.child, test, predicates⟩]⟩ := parse_of_named_axis .descendant hdescendant
  have hname : "/descendant::" = "/" ++ "descendant::" := rfl
  constructor
  · have hshort := parse_display_append .double hchild
    have hlong := parse_display_append .single hdescendant
    rw [hname, String.append_assoc]
    exact selectSame_of_parse hshort hlong (hselect true [])
  · intro front path hfront hne
    have hshort := parse_append hfront hne .double hchild
    have hlong := parse_append hfront hne .single hdescendant
    rw [hname, ← String.append_assoc, @String.append_assoc (front ++ "/")]
    exact selectSame_of_parse hshort hlong (hselect path.absolute path.steps)

/-- The predicate `[not(@class)]`. -/
def classless : Expr := (Expr.attribute "class").negation

/-- Both items of the page lack the class, and both queries find them below the document element. -/
theorem doubleSlash_abbreviates_descendant_itemsPage :
    itemsPage.Built ∧ itemsPage.ElementsNest ∧ itemsPage.parent? Document.root = none ∧ itemsPage.isAttached 1 = true ∧
      (∀ e ∈ [classless], e.IsPlaceless) ∧
      parse ("descendant::" ++ "LI[not(@class)]") = .ok ⟨false, [⟨.descendant, .name "LI", [classless]⟩]⟩ ∧
      parse "." = .ok ⟨false, [.here]⟩ ∧
      SelectSame itemsPage 1 ("." ++ "//" ++ "LI[not(@class)]") ("." ++ "/descendant::" ++ "LI[not(@class)]") ∧
      select itemsPage 1 ".//LI[not(@class)]" = .ok [3, 4] := by
  have hnest : itemsPage.ElementsNest := by decide
  have hplaceless : ∀ e ∈ [classless], e.IsPlaceless := List.forall_mem_singleton.2 ⟨rfl, by decide⟩
  have hparse : parse ("descendant::" ++ "LI[not(@class)]") =
      .ok ⟨false, [⟨.descendant, .name "LI", [classless]⟩]⟩ := by cbv
  have hfront : parse "." = .ok ⟨false, [.here]⟩ := by cbv
  obtain ⟨-, hqueries⟩ := doubleSlash_abbreviates_descendant built_itemsPage hnest (by decide)
    (show itemsPage.isAttached 1 = true by decide) (.name "LI") [classless] hplaceless
  have hsame := (hqueries _ hparse).2 "." _ hfront (List.cons_ne_nil _ _)
  exact ⟨built_itemsPage, hnest, by decide, by decide, hplaceless, hparse, hfront, hsame, by cbv⟩

end ElementLocator.XPath
