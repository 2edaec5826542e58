import ElementLocator.Proofs.Locator.Trail
import ElementLocator.Proofs.XPath.Selection

/-!
# What a written location path selects

The step of a descriptor takes a node to those of its children that resemble the described node and whose attributes
contain the chosen values. The steps of a trail therefore reach the node at its end, and whatever they reach follows
the trail.
-/

namespace ElementLocator.Locator

open XPath (Expr Reached keep)

variable {d : Document} {start leaf n m p : NodeId} {descriptors : List Descriptor} {x : Descriptor}

/-- The value is part of the attribute; an attribute that is missing has no part but the empty text. -/
def HasPart (d : Document) (choice : String × String) (n : NodeId) : Prop :=
  choice.2.toList <:+: ((d.attribute? n (Text.lower choice.1)).getD "").toList

/-- Every chosen value is part of its attribute. -/
def Descriptor.Meets (d : Document) (descriptor : Descriptor) (n : NodeId) : Prop :=
  ∀ choice ∈ descriptor.choices, HasPart d choice n

/-- The described node meets the conditions because it offers the values. -/
theorem Descriptor.Offered.meets (hlower : ∀ entry ∈ x.attributes, Text.lower entry.1 = entry.1)
    (h : x.Offered d) : x.Meets d x.node := by
  intro choice hchoice
  obtain ⟨entry, hentry, hvalue⟩ := List.mem_flatMap.1 hchoice
  obtain ⟨value, hv, rfl⟩ := List.mem_map.1 hvalue
  rw [HasPart, hlower entry hentry]
  obtain ⟨-, ⟨hclass, hword⟩ | ⟨-, hwhole⟩⟩ := mem_candidateValues (hlower entry hentry) (h entry hentry value hv)
  · rw [hclass]
    exact (Text.mem_words (List.mem_eraseDups.1 hword)).2
  · rw [hwhole]
    exact List.infix_rfl

/-! ### Predicates -/

/-- The expression of a choice says whether its value occurs in the attribute of the node. -/
theorem eval_choiceExpr (choice : String × String) (focus : XPath.Focus) :
    (choiceExpr choice).eval d focus = .boolean
      (Text.occursIn choice.2.toList ((d.attribute? focus.node (Text.lower choice.1)).getD "").toList) := by
  rw [choiceExpr, Expr.eval, Expr.evalAll, Expr.evalAll, Expr.evalAll, Expr.eval, XPath.eval_literalExpr,
    String.ofList_toList]
  rfl

/-- The conditions joined by `and` hold where all of them hold. -/
theorem holds_choices (first : String × String) (others : List (String × String)) (focus : XPath.Focus) :
    ((others.map choiceExpr).foldl .and (choiceExpr first)).holds d focus = true ↔
      ∀ choice ∈ first :: others, HasPart d choice focus.node := by
  have heval : ∀ (others : List (String × String)) (left : Expr) (value : Bool), left.eval d focus = .boolean value →
      ((others.map choiceExpr).foldl .and left).eval d focus = .boolean (value && others.all fun choice =>
        Text.occursIn choice.2.toList ((d.attribute? focus.node (Text.lower choice.1)).getD "").toList) := by
    intro others
    induction others with
    | nil =>
      intro left value hleft
      rw [List.map_nil, List.foldl_nil, hleft, List.all_nil, Bool.and_true]
    | cons choice others ih =>
      intro left value hleft
      have hboth : (Expr.and left (choiceExpr choice)).eval d focus = .boolean (value &&
          Text.occursIn choice.2.toList ((d.attribute? focus.node (Text.lower choice.1)).getD "").toList) := by
        rw [Expr.eval, hleft, eval_choiceExpr]
        rfl
      rw [List.map_cons, List.foldl_cons, ih _ _ hboth, List.all_cons, Bool.and_assoc]
  rw [Expr.holds, heval others _ _ (eval_choiceExpr first focus)]
  simp only [XPath.Value.truthy, Bool.and_eq_true, List.all_eq_true, Text.occursIn_iff, List.forall_mem_cons, HasPart]

/-- The predicate of the conditions keeps the nodes that meet them. -/
theorem mem_keep_choices {nodes : List NodeId} (choices : List (String × String)) :
    n ∈ ((choicePredicates choices).map Prod.snd).foldl (keep d) nodes ↔
      n ∈ nodes ∧ ∀ choice ∈ choices, HasPart d choice n := by
  cases choices with
  | nil => simp [choicePredicates]
  | cons first others =>
    rw [choicePredicates, List.map_singleton, List.foldl_cons, List.foldl_nil]
    exact XPath.mem_keep_of_node (p := fun n => ∀ choice ∈ first :: others, HasPart d choice n)
      (holds_choices first others)

/-- The predicate of the place keeps what has that place among the children with the tag. -/
theorem mem_keep_place (hd : d.Sound) (hfew : d.FewSiblings) {tag : String} {t : NodeId}
    (ht : d.isElement t = true) :
    n ∈ ((placePredicates d t).map Prod.snd).foldl (keep d) (d.childrenWithTag p tag) ↔
      n ∈ d.childrenWithTag p tag ∧ (d.positionalIndex t = 0 ∨ d.positionalIndex n = d.positionalIndex t) := by
  have hplace := hd.positionalIndex_add_one_lt hfew ht
  unfold placePredicates
  cases hk : d.positionalIndex t with
  | zero => simp
  | succ k =>
    rw [hk] at hplace
    rw [List.map_singleton, List.foldl_cons, List.foldl_nil,
      XPath.mem_keep_place hd (hfew.length_childrenWithTag_lt p tag) hplace]
    simp

/-! ### Steps -/

/-- The step of a descriptor leads to the children that resemble the described node and meet the conditions. -/
theorem mem_from_toStep (hd : d.Sound) (hfew : d.FewSiblings) (hx : x.Writable d) :
    n ∈ (x.toStep d).from d p ↔ d.parent? n = some p ∧ x.Resembles d n ∧ x.Meets d n := by
  obtain ⟨tag, htag, -⟩ := hx.tag
  rw [XPath.Step.from, Descriptor.toStep, Descriptor.predicates, List.map_append, List.foldl_append,
    XPath.filter_passes_name hd, lower_tagOf hd htag, mem_keep_choices, mem_keep_place hd hfew hx.isElement,
    hd.mem_childrenWithTag_iff]
  constructor
  · intro h
    obtain ⟨⟨⟨hparent, hn⟩, hindex⟩, hmeets⟩ := h
    exact ⟨hparent, ⟨hn.trans htag.symm, hindex⟩, hmeets⟩
  · intro h
    obtain ⟨hparent, ⟨hn, hindex⟩, hmeets⟩ := h
    exact ⟨⟨⟨hparent, hn.trans htag⟩, hindex⟩, hmeets⟩

/-! ### Paths -/

/-- Nodes that meet their own conditions are reached by their own steps. -/
theorem Leads.reached (hd : d.Sound) (hfew : d.FewSiblings) (hwritable : ∀ x ∈ descriptors, x.Writable d)
    (hmeets : ∀ x ∈ descriptors, x.Meets d x.node) (h : Leads d descriptors p n) :
    Reached d (descriptors.map (Descriptor.toStep d)) p n := by
  induction descriptors generalizing p with
  | nil => exact h
  | cons x rest ih =>
    obtain ⟨hx, hrest⟩ := h
    have hstep := (mem_from_toStep hd hfew (hwritable x List.mem_cons_self)).2
      ⟨hx, x.resembles_node d, hmeets x List.mem_cons_self⟩
    refine ⟨x.node, hstep, ih ?_ ?_ hrest⟩
    · exact fun y hy => hwritable y (List.mem_cons_of_mem x hy)
    · exact fun y hy => hmeets y (List.mem_cons_of_mem x hy)

/-- What the steps reach follows the described nodes. -/
theorem follows_of_reached (hd : d.Sound) (hfew : d.FewSiblings) (hwritable : ∀ x ∈ descriptors, x.Writable d)
    (h : Reached d (descriptors.map (Descriptor.toStep d)) p n) : Follows d descriptors p n := by
  have hdescends := (XPath.reached_iff_descends fun x hx p n => mem_from_toStep hd hfew (hwritable x hx)).1 h
  exact follows_iff_descends.2 (hdescends.mono fun x _ k hk => hk.1)

/-- From where a query may start, `//` leads to the node and all elements below it. -/
theorem mem_from_anywhere (hd : d.Sound) (hstart : start = Document.root ∨ d.isElement start = true) :
    m ∈ XPath.Step.anywhere.from d start ↔ m = start ∨ m ∈ d.descendantElements start := by
  rw [XPath.mem_from_anywhere]
  refine and_iff_left_of_imp fun hm => ?_
  rcases hm with rfl | hm
  · exact hstart
  · exact .inr (hd.mem_descendantElements_iff.1 hm).2

/-- The path selects what its steps reach from the start or from any element below it. -/
theorem mem_select_pathOf (hd : d.Sound) (hstart : start = Document.root ∨ d.isElement start = true)
    {anchoring : Anchoring} (hanchoring : anchoring = .absolute → start = Document.root) :
    n ∈ (pathOf d descriptors anchoring).select d start ↔
      ∃ m, (m = start ∨ m ∈ d.descendantElements start) ∧
        Reached d (descriptors.map (Descriptor.toStep d)) m n := by
  rw [XPath.mem_select]
  cases anchoring with
  | absolute =>
    obtain rfl := hanchoring rfl
    simp only [pathOf, if_true, Reached, mem_from_anywhere hd (.inl rfl)]
  | relative =>
    have hhere : XPath.Step.here.from d start = [start] := by
      have hfrom : XPath.Step.here.from d start = [start].filter fun k => XPath.NodeTest.anyNode.passes d k := rfl
      rw [hfrom, List.filter_eq_self]
      intro k hk
      rw [List.mem_singleton.1 hk]
      exact XPath.passes_anyNode_iff.2 hstart
    simp only [pathOf, Bool.false_eq_true, if_false, Reached, hhere, List.mem_singleton, exists_eq_left,
      mem_from_anywhere hd hstart]

/-- No step of a written path climbs. -/
theorem axis_ne_parent (d : Document) (descriptors : List Descriptor) (anchoring : Anchoring) :
    ∀ s ∈ (pathOf d descriptors anchoring).steps, s.axis ≠ .parent := by
  have hsteps : ∀ s ∈ descriptors.map (Descriptor.toStep d), s.axis ≠ .parent := by
    intro s hs
    obtain ⟨x, -, rfl⟩ := List.mem_map.1 hs
    simp [Descriptor.toStep]
  cases anchoring <;> simpa [pathOf, XPath.Step.anywhere, XPath.Step.here] using hsteps

/-- The path selects the elements of the document that its steps reach, in document order. -/
theorem select_pathOf (hd : d.Sound) (hattached : Document.root ∈ d.nodes.lineage start)
    (descriptors : List Descriptor) (anchoring : Anchoring) :
    ((pathOf d descriptors anchoring).select d start).filter d.isElement =
      d.elements.filter (· ∈ (pathOf d descriptors anchoring).select d start) := by
  refine XPath.select_elements hd (axis_ne_parent d descriptors anchoring) ?_ hattached
  cases anchoring <;> exact List.cons_ne_nil _ _

end ElementLocator.Locator
