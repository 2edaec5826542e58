import ElementLocator.Css.Query
import ElementLocator.Proofs.Forest.Subtree
import ElementLocator.Proofs.XPath.Acceptance
import ElementLocator.Proofs.XPath.Semantics

/-!
# Queries below a detached element

Steps that do not climb read nothing outside the subtree of the element they start from, so detaching the element
leaves them all nodes that they had. What is lost is the order: the nodes of the subtree no longer have a place in the
document, and come in the order in which the steps find them. That is document order as long as the steps descend at
most once, and children of nodes that stand below one another break it.
-/

namespace ElementLocator.Document

variable {d : Document} {n : NodeId}

@[simp] theorem content?_detach (d : Document) (c n : NodeId) : (d.detach c).content? n = d.content? n := by
  simp [content?, Document.detach]

@[simp] theorem localName?_detach (d : Document) (c n : NodeId) : (d.detach c).localName? n = d.localName? n := by
  simp [localName?]

@[simp] theorem isElement_detach (d : Document) (c n : NodeId) : (d.detach c).isElement n = d.isElement n := by
  simp [isElement]

@[simp] theorem attribute?_detach (d : Document) (c n : NodeId) (name : String) :
    (d.detach c).attribute? n name = d.attribute? n name := by
  simp [attribute?, attributes]

end ElementLocator.Document

namespace ElementLocator.XPath

variable {d : Document} {c m n : NodeId}

/-! ### Reading the subtree alone -/

mutual

/-- Of a document, an expression reads the attributes only. -/
theorem eval_congr {d d' : Document} (h : ∀ n name, d'.attribute? n name = d.attribute? n name) (focus : Focus) :
    ∀ e : Expr, e.eval d' focus = e.eval d focus
  | .or left right => by rw [Expr.eval, Expr.eval, eval_congr h focus left, eval_congr h focus right]
  | .and left right => by rw [Expr.eval, Expr.eval, eval_congr h focus left, eval_congr h focus right]
  | .compare negated left right => by rw [Expr.eval, Expr.eval, eval_congr h focus left, eval_congr h focus right]
  | .number _ | .literal _ => by rw [Expr.eval, Expr.eval]
  | .attribute name => by rw [Expr.eval, Expr.eval, h]
  | .call function arguments => by rw [Expr.eval, Expr.eval, evalAll_congr h focus arguments]

/-- Expressions have the same values in documents with the same attributes. -/
theorem evalAll_congr {d d' : Document} (h : ∀ n name, d'.attribute? n name = d.attribute? n name) (focus : Focus) :
    ∀ es : List Expr, Expr.evalAll d' focus es = Expr.evalAll d focus es
  | [] => by rw [Expr.evalAll, Expr.evalAll]
  | e :: rest => by rw [Expr.evalAll, Expr.evalAll, eval_congr h focus e, evalAll_congr h focus rest]

end

/-- Detaching keeps what a predicate keeps. -/
theorem keep_detach (d : Document) (c : NodeId) : keep (d.detach c) = keep d := by
  funext nodes predicate
  simp only [keep, Expr.holds, eval_congr (Document.attribute?_detach d c)]

/-- Detaching keeps what passes a node test. -/
theorem passes_detach (d : Document) (c n : NodeId) (test : NodeTest) :
    test.passes (d.detach c) n = test.passes d n := by
  cases test <;> simp [NodeTest.passes]

/-- Below a detached node every axis that does not climb leads where it led. -/
theorem axis_detach (h : d.Sound) (hm : c ∈ d.nodes.lineage m) {axis : Axis} (hdown : axis ≠ .parent) :
    axis.nodes (d.detach c) m = axis.nodes d m := by
  have helement : (d.detach c).isElement = d.isElement := funext (Document.isElement_detach d c)
  have hdescendants : (d.detach c).descendantElements m = d.descendantElements m := by
    rw [Document.descendantElements, Document.descendantElements, Document.detach, h.wellFormed.preorder_detach hm]
    exact congrArg (List.filter · _) helement
  cases axis with
  | child =>
    rw [Axis.nodes, Axis.nodes, Document.elementChildren, Document.elementChildren, helement, Document.detach,
      h.wellFormed.children_detach_of_mem hm]
  | descendant => exact hdescendants
  | descendantOrSelf => exact congrArg (m :: ·) hdescendants
  | self => rfl
  | parent => exact absurd rfl hdown

/-- Within a detached subtree, a step that does not climb leads where it leads in the document. -/
theorem from_detach (h : d.Sound) (hm : c ∈ d.nodes.lineage m) {s : Step} (hdown : s.axis ≠ .parent) :
    s.from (d.detach c) m = s.from d m := by
  rw [Step.from, Step.from, keep_detach, axis_detach h hm hdown]
  simp only [passes_detach]

/-! ### The order of discovery -/

/-- The nodes that steps lead to, each once, in the order in which the steps find them. -/
def discovered (d : Document) (steps : List Step) (inputs : List NodeId) : List NodeId :=
  steps.foldl (fun inputs s => (inputs.flatMap (s.from d)).eraseDups) inputs

/-- What is discovered is what the steps reach. -/
theorem mem_discovered {steps : List Step} {inputs : List NodeId} :
    n ∈ discovered d steps inputs ↔ ∃ m ∈ inputs, Reached d steps m n :=
  mem_foldl_iff fun _ _ _ => by rw [List.mem_eraseDups, List.mem_flatMap]

/-- Nothing is discovered twice from inputs without repetitions. -/
theorem discovered_nodup {steps : List Step} {inputs : List NodeId} (h : inputs.Nodup) :
    (discovered d steps inputs).Nodup := by
  induction steps generalizing inputs with
  | nil => exact h
  | cons s steps ih => exact ih (eraseDups_nodup _)

/-- Nodes without a place in the document keep their order. -/
theorem inDocumentOrder_of_not_mem {nodes : List NodeId} (h : ∀ n ∈ nodes, n ∉ order d) :
    inDocumentOrder d nodes = nodes := by
  refine List.mergeSort_of_pairwise (List.pairwise_of_forall_mem_list fun a ha b hb => ?_)
  rw [decide_eq_true_eq]
  exact Nat.le_of_eq ((List.idxOf_eq_length (h a ha)).trans (List.idxOf_eq_length (h b hb)).symm)

variable (hc : d.isElement c = true) (hattached : Document.root ∈ d.nodes.lineage c)

include hc hattached

/-- Nothing below a detached element has a place in the document. -/
theorem not_mem_order_detach (h : d.Sound) (hn : c ∈ d.nodes.lineage n) : n ∉ order (d.detach c) := by
  have hroot : Document.root ≠ c := by
    rintro rfl
    simp [h.isElement_root] at hc
  intro horder
  exact h.wellFormed.not_mem_lineage_detach hattached hroot hn (root_mem_lineage_of_order (h.detach c) horder)

/-- Within a detached subtree, steps that do not climb come to what is discovered. -/
theorem foldl_apply_detach (h : d.Sound) {steps : List Step} (hdown : ∀ s ∈ steps, s.axis ≠ .parent)
    {inputs : List NodeId} (hinputs : ∀ m ∈ inputs, c ∈ d.nodes.lineage m) :
    steps.foldl (Step.apply (d.detach c)) inputs = discovered d steps inputs := by
  induction steps generalizing inputs with
  | nil => rfl
  | cons s steps ih =>
    have hs := hdown s List.mem_cons_self
    have hfrom : inputs.flatMap (s.from (d.detach c)) = inputs.flatMap (s.from d) :=
      List.flatMap_congr fun m hm => from_detach h (hinputs m hm) hs
    have hbelow : ∀ n ∈ (inputs.flatMap (s.from d)).eraseDups, c ∈ d.nodes.lineage n := fun n hn => by
      rw [List.mem_eraseDups, List.mem_flatMap] at hn
      obtain ⟨m, hm, hn⟩ := hn
      exact mem_lineage_of_axis h hs (hinputs m hm) (mem_axis_of_mem_from hn).1
    have happly : Step.apply (d.detach c) inputs s = (inputs.flatMap (s.from d)).eraseDups := by
      rw [Step.apply, hfrom]
      exact inDocumentOrder_of_not_mem fun n hn => not_mem_order_detach hc hattached h (hbelow n hn)
    rw [List.foldl_cons, happly]
    exact ih (fun t ht => hdown t (List.mem_cons_of_mem s ht)) hbelow

omit hc hattached

/-! ### Descending once -/

/-- The steps go to children or stay, then descend at most once, and stay from there on. -/
def DescendsOnce : List Step → Bool
  | [] => true
  | s :: rest => match s.axis with
    | .child | .self => DescendsOnce rest
    | .descendant | .descendantOrSelf => rest.all (·.axis == .self)
    | .parent => false

/-- What an axis that does not climb leads to stands in the order of the subtree. -/
theorem axis_sublist_preorder (h : d.Sound) {axis : Axis} (hdown : axis ≠ .parent) (m : NodeId) :
    (axis.nodes d m).Sublist (d.nodes.preorder m) := by
  have hdescendants : (m :: d.descendantElements m).Sublist (d.nodes.preorder m) := by
    rw [h.descendantElements_eq, h.wellFormed.preorder_eq]
    exact List.filter_sublist.cons_cons m
  have hbelow : (d.descendantElements m).Sublist (d.nodes.preorder m) :=
    (List.sublist_cons_self _ _).trans hdescendants
  cases axis with
  | child => exact (h.elementChildren_sublist m).trans hbelow
  | descendant => exact hbelow
  | descendantOrSelf => exact hdescendants
  | self => exact List.singleton_sublist.2 (h.wellFormed.self_mem_preorder m)
  | parent => exact absurd rfl hdown

/-- A step that stays where it is leaves out nodes. -/
theorem flatMap_from_sublist_of_self {s : Step} (hself : s.axis = .self) (inputs : List NodeId) :
    (inputs.flatMap (s.from d)).Sublist inputs := by
  have hfrom : ∀ m ∈ inputs, (s.from d m).Sublist [m] := fun m _ => by
    have hsub := (from_sublist (d := d) s m).trans List.filter_sublist
    rwa [hself] at hsub
  simpa using List.Sublist.flatMap_right inputs hfrom

/-- Steps that stay discover a part of the inputs in their order. -/
theorem discovered_sublist_of_self {steps : List Step} (hself : ∀ s ∈ steps, s.axis = .self) {inputs : List NodeId}
    (hnodup : inputs.Nodup) : (discovered d steps inputs).Sublist inputs := by
  induction steps generalizing inputs with
  | nil => exact List.Sublist.refl _
  | cons s steps ih =>
    have hstep := flatMap_from_sublist_of_self (d := d) (hself s List.mem_cons_self) inputs
    have hmore := ih (fun t ht => hself t (List.mem_cons_of_mem s ht)) (hnodup.sublist hstep)
    rw [discovered, List.foldl_cons, eraseDups_of_nodup (hnodup.sublist hstep)]
    exact hmore.trans hstep

/-- From nodes apart, steps that descend once find the nodes in document order. -/
theorem discovered_sublist_preorder (h : d.Sound) {steps : List Step} (hsteps : DescendsOnce steps = true)
    {inputs : List NodeId} (hinputs : inputs.Sublist (d.nodes.preorder c)) (happart : d.nodes.Apart inputs) :
    (discovered d steps inputs).Sublist (d.nodes.preorder c) := by
  induction steps generalizing inputs with
  | nil => exact hinputs
  | cons s steps ih =>
    have hdown : s.axis ≠ .parent := fun heq => by
      rw [DescendsOnce, heq] at hsteps
      cases hsteps
    have hstep : (inputs.flatMap (s.from d)).Sublist (d.nodes.preorder c) := by
      refine List.Sublist.trans ?_ (h.wellFormed.flatMap_preorder_sublist hinputs happart)
      refine List.Sublist.flatMap_right inputs fun m _ => ?_
      exact ((from_sublist s m).trans List.filter_sublist).trans (axis_sublist_preorder h hdown m)
    have hnodup := (h.wellFormed.preorder_nodup c).sublist hstep
    rw [discovered, List.foldl_cons, eraseDups_of_nodup hnodup]
    rw [DescendsOnce] at hsteps
    cases haxis : s.axis with
    | child =>
      rw [haxis] at hsteps
      have hchildren : (inputs.flatMap (s.from d)).Sublist (inputs.flatMap d.nodes.children) := by
        refine List.Sublist.flatMap_right inputs fun m _ => ((from_sublist s m).trans List.filter_sublist).trans ?_
        rw [haxis]
        exact List.filter_sublist
      exact ih hsteps hstep ((h.wellFormed.apart_flatMap_children happart).sublist hchildren)
    | self =>
      rw [haxis] at hsteps
      exact ih hsteps hstep (happart.sublist (flatMap_from_sublist_of_self haxis inputs))
    | descendant | descendantOrSelf =>
      rw [haxis] at hsteps
      exact (discovered_sublist_of_self (by simpa using hsteps) hnodup).trans hstep
    | parent => exact absurd haxis hdown

/-! ### Queries -/

/-- What a query that does not climb finds in the document stands in document order. -/
theorem filter_select_sublist (h : d.Sound) (hc : d.isElement c = true) (hattached : Document.root ∈ d.nodes.lineage c)
    {path : LocationPath} (hrelative : path.absolute = false) (hdown : ∀ s ∈ path.steps, s.axis ≠ .parent) :
    ((path.select d c).filter d.isElement).Sublist d.elements := by
  by_cases hne : path.steps = []
  · rw [LocationPath.select, hne, List.foldl_nil, hrelative]
    refine List.filter_sublist.trans (List.singleton_sublist.2 ?_)
    exact h.mem_elements_of_lineage hc hattached
  · rw [select_elements h hdown hne hattached]
    exact List.filter_sublist

/-- A query that does not climb finds below an attached element the same elements before and after the element is
detached: before in document order, after in the order of discovery. If the query descends at most once, these are the
same, and so is the first element that it finds. -/
theorem select_detach (hd : d.Built) (hc : d.isElement c = true) (hattached : d.isAttached c = true) {query : String}
    {path : LocationPath} (hparse : parse query = .ok path) (hrelative : path.absolute = false)
    (hdown : ∀ s ∈ path.steps, s.axis ≠ .parent) :
    ∃ ordered found, select d c query = .ok ordered ∧ select (d.detach c) c query = .ok found ∧
      ordered.Sublist d.elements ∧ found = (discovered d path.steps [c]).filter d.isElement ∧ found.Perm ordered ∧
      (DescendsOnce path.steps = true →
        found = ordered ∧ selectFirstFrom (d.detach c) c query = selectFirstFrom d c query) := by
  have h := hd.sound
  have hroot := Document.Sound.isAttached_iff.1 hattached
  have hself := Forest.WellFormed.self_mem_lineage d.nodes c
  have hordered := filter_select_sublist h hc hroot hrelative hdown
  have hfound : path.select (d.detach c) c = discovered d path.steps [c] := by
    rw [LocationPath.select, hrelative]
    exact foldl_apply_detach hc hroot h hdown (by simpa using hself)
  have hperm : ((discovered d path.steps [c]).filter d.isElement).Perm ((path.select d c).filter d.isElement) := by
    refine (List.perm_ext_iff_of_nodup ((discovered_nodup (List.nodup_singleton c)).filter _)
      ((h.descendantElements_nodup _).sublist hordered)).2 fun n => ?_
    rw [List.mem_filter, List.mem_filter, mem_discovered, mem_select, hrelative]
    simp
  have hselect : select d c query = .ok ((path.select d c).filter d.isElement) := by
    rw [select, hparse]
    rfl
  have hselect' : select (d.detach c) c query = .ok ((discovered d path.steps [c]).filter d.isElement) := by
    rw [select, hparse, ← hfound]
    exact congrArg (fun p => Except.ok (List.filter p _)) (funext (Document.isElement_detach d c))
  refine ⟨_, _, hselect, hselect', hordered, rfl, hperm, fun honce => ?_⟩
  have hsub : ((discovered d path.steps [c]).filter d.isElement).Sublist d.elements := by
    have hpreorder := discovered_sublist_preorder h honce
      (List.singleton_sublist.2 (h.wellFormed.self_mem_preorder c)) (List.pairwise_singleton _ _)
    rw [h.elements_eq]
    exact (hpreorder.trans (h.wellFormed.preorder_sublist hroot)).filter _
  have hsame := hperm.eq_of_pairwise (fun a b _ _ hab hba =>
    absurd hba (not_pair_sublist_swap (h.descendantElements_nodup Document.root) hab))
    (List.pairwise_iff_forall_sublist.2 fun {a b} hab => hab.trans hsub)
    (List.pairwise_iff_forall_sublist.2 fun {a b} hab => hab.trans hordered)
  refine ⟨hsame, ?_⟩
  rw [selectFirstFrom, selectFirstFrom, hselect, hselect', hsame]

/-- The path `descendant::LI`. -/
def descendantItems : LocationPath := ⟨false, [⟨.descendant, .name "LI", []⟩]⟩

/-- In the detached list, the query finds the items in the order in which they are discovered, which is their order in
the document. -/
theorem select_detach_itemsPage :
    ∃ ordered found, select itemsPage 1 "descendant::LI" = .ok ordered ∧
      select (itemsPage.detach 1) 1 "descendant::LI" = .ok found ∧ ordered.Sublist itemsPage.elements ∧
      found = (discovered itemsPage descendantItems.steps [1]).filter itemsPage.isElement ∧ found.Perm ordered ∧
      (DescendsOnce descendantItems.steps = true → found = ordered ∧
        selectFirstFrom (itemsPage.detach 1) 1 "descendant::LI" = selectFirstFrom itemsPage 1 "descendant::LI") :=
  select_detach built_itemsPage (by decide) (by decide) (by cbv) rfl (by simp [descendantItems])

/-- A query with children behind a descent loses document order below a detached element, and answers with another
first element than before; a selector for the same items still finds the one that it found. -/
theorem select_itemsPage_detached :
    itemsPage.Built ∧ itemsPage.isElement 1 = true ∧ itemsPage.isAttached 1 = true ∧
      parse ".//LI" = .ok itemsPath ∧ (∀ s ∈ itemsPath.steps, s.axis ≠ .parent) ∧
      select itemsPage 1 ".//LI" = .ok [3, 4] ∧ select (itemsPage.detach 1) 1 ".//LI" = .ok [4, 3] ∧
      selectFirstFrom itemsPage 1 ".//LI" = .ok (some 3) ∧
      selectFirstFrom (itemsPage.detach 1) 1 ".//LI" = .ok (some 4) ∧
      Css.queryWithin (itemsPage.detach 1) 1 "LI" = .ok (some 3) :=
  ⟨built_itemsPage, by decide, by decide, by cbv, by simp [itemsPath, Step.here, Step.anywhere], by cbv, by cbv, by cbv,
    by cbv, by decide +kernel⟩

end ElementLocator.XPath
