import ElementLocator.Proofs.Document.Descent
import ElementLocator.Proofs.Document.Positions
import ElementLocator.Proofs.XPath.Writing
import ElementLocator.XPath.Query

/-!
# What a location path selects

A node is selected if steps lead to it: `Reached` follows one node through the steps, with no regard to the other
nodes that are on the way at the same time. A step to the children with a tag, perhaps at a place, leads down to one
kind of child. The result of a step lists each node once and in document order, so the first selected element is the
first element of the document that is reached.
-/

namespace ElementLocator.XPath

variable {d : Document} {m n p : NodeId}

/-- The steps lead from the first node to the second. -/
def Reached (d : Document) : List Step → NodeId → NodeId → Prop
  | [], m, n => n = m
  | s :: rest, m, n => ∃ k ∈ s.from d m, Reached d rest k n

/-- All that can be found in the document, in document order. -/
def order (d : Document) : List NodeId := Document.root :: d.elements

/-! ### Sets of nodes in document order -/

/-- The order of the document lists no node twice. -/
theorem order_nodup (h : d.Sound) : (order d).Nodup := by
  refine List.nodup_cons.2 ⟨fun hroot => ?_, h.descendantElements_nodup _⟩
  have helement := (h.mem_elements_iff.1 hroot).1
  rw [h.isElement_root] at helement
  cases helement

/-- Without repetitions no node is listed twice. -/
theorem eraseDups_nodup (nodes : List NodeId) : nodes.eraseDups.Nodup := by
  induction hlength : nodes.length using Nat.strong_induction_on generalizing nodes with
  | _ k ih =>
    cases nodes with
    | nil => exact List.nodup_nil
    | cons n rest =>
      rw [List.eraseDups_cons, List.nodup_cons, List.mem_eraseDups]
      refine ⟨by simp, ih _ ?_ _ rfl⟩
      rw [← hlength, List.length_cons]
      exact Nat.lt_succ_of_le (List.length_filter_le _ _)

/-- A list without repetitions is kept as it is. -/
theorem eraseDups_of_nodup {nodes : List NodeId} (h : nodes.Nodup) : nodes.eraseDups = nodes := by
  induction nodes with
  | nil => rfl
  | cons n rest ih =>
    obtain ⟨hn, hrest⟩ := List.nodup_cons.1 h
    have hall : rest.filter (fun m => !m == n) = rest := List.filter_eq_self.2 fun m hm => by
      simpa using fun heq : m = n => hn (heq ▸ hm)
    rw [List.eraseDups_cons, hall, ih hrest]

/-- A list of nodes of the document, put in order, is what it has of the document. -/
theorem inDocumentOrder_eq (h : d.Sound) {nodes : List NodeId} (hnodup : nodes.Nodup)
    (hnodes : ∀ n ∈ nodes, n ∈ order d) : inDocumentOrder d nodes = (order d).filter (· ∈ nodes) := by
  have hperm : (inDocumentOrder d nodes).Perm ((order d).filter (· ∈ nodes)) := by
    refine (List.mergeSort_perm _ _).trans ((List.perm_ext_iff_of_nodup hnodup ((order_nodup h).filter _)).2 ?_)
    intro n
    rw [List.mem_filter, decide_eq_true_eq]
    exact ⟨fun hn => ⟨hnodes n hn, hn⟩, fun hn => hn.2⟩
  have hsorted : (inDocumentOrder d nodes).Pairwise fun a b => (order d).idxOf a ≤ (order d).idxOf b := by
    have hpairwise := @List.pairwise_mergeSort NodeId
      (fun a b => decide ((order d).idxOf a ≤ (order d).idxOf b))
      (fun a b c hab hbc => by simpa using Nat.le_trans (by simpa using hab) (by simpa using hbc))
      (fun a b => by simpa using Nat.le_total _ _) nodes
    exact hpairwise.imp of_decide_eq_true
  have horder : (order d).Pairwise fun a b => (order d).idxOf a ≤ (order d).idxOf b := by
    rw [List.pairwise_iff_getElem]
    intro i j hi hj hij
    rw [(order_nodup h).idxOf_getElem, (order_nodup h).idxOf_getElem]
    exact Nat.le_of_lt hij
  refine hperm.eq_of_pairwise ?_ hsorted (horder.filter _)
  intro a b ha hb hab hba
  have hmem : a ∈ order d := hnodes a ((List.mergeSort_perm _ _).mem_iff.1 ha)
  exact (List.idxOf_inj hmem).1 (Nat.le_antisymm hab hba)

/-- A step leads to what it leads to from one of its inputs. -/
theorem mem_apply {inputs : List NodeId} {s : Step} :
    n ∈ Step.apply d inputs s ↔ ∃ m ∈ inputs, n ∈ s.from d m := by
  rw [Step.apply, inDocumentOrder, (List.mergeSort_perm _ _).mem_iff, List.mem_eraseDups, List.mem_flatMap]

/-- Whatever puts together what a step takes from all its inputs, the steps lead to what they reach. -/
theorem mem_foldl_iff {take : List NodeId → Step → List NodeId}
    (htake : ∀ n inputs s, n ∈ take inputs s ↔ ∃ m ∈ inputs, n ∈ s.from d m) {steps : List Step}
    {inputs : List NodeId} : n ∈ steps.foldl take inputs ↔ ∃ m ∈ inputs, Reached d steps m n := by
  induction steps generalizing inputs with
  | nil => simp [Reached]
  | cons s steps ih =>
    rw [List.foldl_cons, ih]
    simp only [htake, Reached]
    exact ⟨fun ⟨k, ⟨m, hm, hk⟩, hn⟩ => ⟨m, hm, k, hk, hn⟩, fun ⟨m, hm, k, hk, hn⟩ => ⟨k, ⟨m, hm, hk⟩, hn⟩⟩

/-- Steps lead to what is reached from one of their inputs. -/
theorem mem_foldl_apply {steps : List Step} {inputs : List NodeId} :
    n ∈ steps.foldl (Step.apply d) inputs ↔ ∃ m ∈ inputs, Reached d steps m n :=
  mem_foldl_iff fun _ _ _ => mem_apply

/-- A location path selects what its steps reach from where it starts. -/
theorem mem_select {path : LocationPath} {context : NodeId} :
    n ∈ path.select d context ↔ Reached d path.steps (if path.absolute then Document.root else context) n := by
  rw [LocationPath.select, mem_foldl_apply]
  simp

/-! ### Predicates -/

/-- A predicate keeps the nodes at the places where it holds. -/
theorem mem_keep_iff {nodes : List NodeId} {predicate : Expr} : n ∈ keep d nodes predicate ↔
    ∃ k, nodes[k]? = some n ∧ predicate.holds d ⟨n, k + 1, nodes.length⟩ = true := by
  rw [keep, List.mem_map]
  constructor
  · rintro ⟨⟨n', k⟩, hmem, rfl⟩
    obtain ⟨hmem, hholds⟩ := List.mem_filter.1 hmem
    exact ⟨k, List.mk_mem_zipIdx_iff_getElem?.1 hmem, hholds⟩
  · rintro ⟨k, hk, hholds⟩
    exact ⟨(n, k), List.mem_filter.2 ⟨List.mk_mem_zipIdx_iff_getElem?.2 hk, hholds⟩, rfl⟩

/-- In a list without repetition a predicate keeps the node at a place if it holds there. -/
theorem mem_keep_iff_of_getElem? {nodes : List NodeId} (hnodup : nodes.Nodup) {predicate : Expr} {k : Nat}
    (hk : nodes[k]? = some n) : n ∈ keep d nodes predicate ↔ predicate.holds d ⟨n, k + 1, nodes.length⟩ = true := by
  rw [mem_keep_iff]
  refine ⟨?_, fun hholds => ⟨k, hk, hholds⟩⟩
  rintro ⟨i, hi, hholds⟩
  have hplace := (List.getElem?_inj (List.getElem?_eq_some_iff.1 hi).1 hnodup).1 (hi.trans hk.symm)
  rwa [hplace] at hholds

/-- A predicate keeps some nodes in their order. -/
theorem keep_sublist (nodes : List NodeId) (predicate : Expr) : (keep d nodes predicate).Sublist nodes := by
  refine (List.filter_sublist.map Prod.fst).trans ?_
  rw [List.zipIdx_map_fst]

/-- A step takes some of the nodes on the axis that pass the test. -/
theorem from_sublist (s : Step) (m : NodeId) :
    (s.from d m).Sublist ((s.axis.nodes d m).filter (s.test.passes d ·)) := by
  have hfold : ∀ (predicates : List Expr) (nodes : List NodeId), (predicates.foldl (keep d) nodes).Sublist nodes := by
    intro predicates
    induction predicates with
    | nil => exact List.Sublist.refl
    | cons predicate predicates ih => exact fun nodes => (ih _).trans (keep_sublist nodes predicate)
  exact hfold _ _

/-- What a step leads to is on its axis and passes its test. -/
theorem mem_axis_of_mem_from {s : Step} (h : n ∈ s.from d m) : n ∈ s.axis.nodes d m ∧ s.test.passes d n = true :=
  List.mem_filter.1 ((from_sublist s m).subset h)

/-- The test for any node is passed by elements and the document node. -/
theorem passes_anyNode_iff : NodeTest.anyNode.passes d n = true ↔ n = Document.root ∨ d.isElement n = true := by
  simp [NodeTest.passes]

/-- `//` leads to the node and to the elements below it; what is neither an element nor the document node is left out. -/
theorem mem_from_anywhere : n ∈ Step.anywhere.from d m ↔
    (n = m ∨ n ∈ d.descendantElements m) ∧ (n = Document.root ∨ d.isElement n = true) := by
  have hfrom : Step.anywhere.from d m = (m :: d.descendantElements m).filter fun k => NodeTest.anyNode.passes d k := rfl
  rw [hfrom, List.mem_filter, List.mem_cons, passes_anyNode_iff]

/-- One more predicate keeps what it holds for of what the others have left. -/
theorem from_concat (s : Step) (predicate : Expr) (m : NodeId) :
    ({ s with predicates := s.predicates ++ [predicate] } : Step).from d m = keep d (s.from d m) predicate := by
  simp only [Step.from, List.foldl_append, List.foldl_cons, List.foldl_nil]

/-- A predicate that depends on the node alone keeps the nodes for which it holds. -/
theorem mem_keep_of_node {nodes : List NodeId} {predicate : Expr} {p : NodeId → Prop}
    (hp : ∀ focus, predicate.holds d focus = true ↔ p focus.node) : n ∈ keep d nodes predicate ↔ n ∈ nodes ∧ p n := by
  rw [mem_keep_iff, List.mem_iff_getElem?, exists_and_right.symm]
  exact exists_congr fun k => and_congr_right fun _ => hp _

/-- A number keeps the node at its place, counted from one. -/
theorem mem_keep_number {nodes : List NodeId} {k : Nat} (hk : k + 1 < Number.double.mantissaBound)
    (hnodes : nodes.length < Number.double.mantissaBound) :
    n ∈ keep d nodes (.number (Number.ofNat (k + 1))) ↔ nodes[k]? = some n := by
  have hholds : ∀ i < nodes.length,
      ((Expr.number (Number.ofNat (k + 1))).holds d ⟨n, i + 1, nodes.length⟩ = true ↔ k = i) := by
    intro i hi
    rw [Expr.holds, Expr.eval]
    dsimp only
    rw [Number.equals_ofNat hk (Nat.lt_of_le_of_lt hi hnodes), decide_eq_true_eq, Nat.succ_inj]
  rw [mem_keep_iff]
  constructor
  · rintro ⟨i, hi, hheld⟩
    rwa [(hholds i (List.getElem?_eq_some_iff.1 hi).1).1 hheld]
  · intro hn
    exact ⟨k, hn, (hholds k (List.getElem?_eq_some_iff.1 hn).1).2 rfl⟩

/-! ### Children with a tag -/

/-- Of the children of a node, the test for a tag passes those with that tag, in any letter case. -/
theorem filter_passes_name (h : d.Sound) (tag : String) (p : NodeId) :
    ((Axis.child.nodes d p).filter fun n => (NodeTest.name tag).passes d n) = d.childrenWithTag p (Text.lower tag) := by
  apply List.filter_congr
  intro n _
  rw [NodeTest.passes]
  cases hn : d.localName? n with
  | none => rfl
  | some other =>
    rw [Option.any_some, Bool.eq_iff_iff, Text.equalIgnoringCase_iff, h.lower_tag n other hn]
    simp

/-- The predicate of a place keeps the child that has it among the children with the tag. -/
theorem mem_keep_place (h : d.Sound) {tag : String} (hfew : (d.childrenWithTag p tag).length < 2 ^ 31) {k : Nat}
    (hk : k + 1 < 2 ^ 31) : n ∈ keep d (d.childrenWithTag p tag) (placePredicate (k + 1)).2 ↔
      n ∈ d.childrenWithTag p tag ∧ d.positionalIndex n = k := by
  have hbound : (2 : Nat) ^ 31 < Number.double.mantissaBound := by decide
  rw [placePredicate, mem_keep_number (hk.trans hbound) (hfew.trans hbound), h.getElem?_childrenWithTag_iff]

/-- Steps each of which leads to the children of a kind reach the ends of the ways down by these kinds. -/
theorem reached_iff_descends {α : Type} {items : List α} {stepOf : α → Step} {kind : α → NodeId → Prop}
    (hfrom : ∀ x ∈ items, ∀ p n, n ∈ (stepOf x).from d p ↔ d.parent? n = some p ∧ kind x n) :
    Reached d (items.map stepOf) p n ↔ d.Descends (items.map kind) p n := by
  induction items generalizing p with
  | nil => exact Iff.rfl
  | cons x items ih =>
    have hmore := fun k => ih (p := k) fun y hy => hfrom y (List.mem_cons_of_mem x hy)
    simp only [List.map_cons, Reached, Document.Descends, hfrom x List.mem_cons_self, hmore, and_assoc]

/-! ### The first selected element -/

/-- The order of the document lists the document node and the attached elements. -/
theorem mem_order_iff (h : d.Sound) :
    n ∈ order d ↔ n = Document.root ∨ d.isElement n = true ∧ d.isAttached n = true := by
  rw [order, List.mem_cons, h.mem_elements_iff]

/-- The nodes in the order of the document are attached. -/
theorem root_mem_lineage_of_order (h : d.Sound) (hn : n ∈ order d) : Document.root ∈ d.nodes.lineage n := by
  rcases (mem_order_iff h).1 hn with rfl | ⟨-, hn⟩
  · exact Forest.WellFormed.self_mem_lineage d.nodes _
  · exact Document.Sound.isAttached_iff.1 hn

/-- An axis that does not climb stays below whatever stands above the node. -/
theorem mem_lineage_of_axis (h : d.Sound) {axis : Axis} (hdown : axis ≠ .parent) {a : NodeId}
    (hm : a ∈ d.nodes.lineage m) (hn : n ∈ axis.nodes d m) : a ∈ d.nodes.lineage n := by
  have hbelow : m ∈ d.nodes.lineage n → a ∈ d.nodes.lineage n := h.wellFormed.mem_lineage_trans hm
  cases axis with
  | child => exact hbelow (h.wellFormed.parent_mem_lineage (h.mem_elementChildren_iff.1 hn).1)
  | descendant => exact hbelow (h.mem_descendantElements_iff.1 hn).1.1
  | descendantOrSelf =>
    rcases List.mem_cons.1 hn with rfl | hn
    · exact hm
    · exact hbelow (h.mem_descendantElements_iff.1 hn).1.1
  | self => rwa [List.mem_singleton.1 hn]
  | parent => exact absurd rfl hdown

/-- Every axis stays in the document, climbing as long as nothing stands above the document node. -/
theorem root_mem_lineage_of_axis (h : d.Sound) {axis : Axis}
    (hclimb : axis = .parent → d.parent? Document.root = none) (hm : Document.root ∈ d.nodes.lineage m)
    (hn : n ∈ axis.nodes d m) : Document.root ∈ d.nodes.lineage n := by
  by_cases haxis : axis = .parent
  · subst haxis
    have hparent : d.nodes.parent? m = some n := Option.mem_toList.1 hn
    rcases h.wellFormed.mem_lineage_iff.1 hm with rfl | ⟨p, hp, hroot⟩
    · exact absurd ((hclimb rfl).symm.trans hparent) nofun
    · rwa [← Option.some.inj (hp.symm.trans hparent)]
  · exact mem_lineage_of_axis h haxis hm hn

/-- Only elements and the document node pass a node test. -/
theorem NodeTest.eq_root_or_isElement {test : NodeTest} (h : test.passes d n = true) :
    n = Document.root ∨ d.isElement n = true := by
  cases test with
  | anyNode => exact passes_anyNode_iff.1 h
  | wildcard => exact .inr h
  | name tag =>
    obtain ⟨other, hother, -⟩ := (Option.any_eq_true _ _).1 h
    exact .inr (Document.isElement_of_localName hother)

/-- What passes a node test in the document has a place in its order. -/
theorem mem_order_of_passes (h : d.Sound) {test : NodeTest} (hn : Document.root ∈ d.nodes.lineage n)
    (htest : test.passes d n = true) : n ∈ order d := by
  refine (mem_order_iff h).2 (NodeTest.eq_root_or_isElement htest |>.imp_right fun helement => ?_)
  exact ⟨helement, Document.Sound.isAttached_iff.2 hn⟩

/-- A step stays in the document. -/
theorem mem_order_of_from (h : d.Sound) {s : Step} (hclimb : s.axis = .parent → d.parent? Document.root = none)
    (hm : Document.root ∈ d.nodes.lineage m) (hn : n ∈ s.from d m) : n ∈ order d := by
  obtain ⟨haxis, htest⟩ := mem_axis_of_mem_from hn
  exact mem_order_of_passes h (root_mem_lineage_of_axis h hclimb hm haxis) htest

/-- Steps stay in the document. -/
theorem root_mem_lineage_of_reached (h : d.Sound) {steps : List Step}
    (hclimb : ∀ s ∈ steps, s.axis = .parent → d.parent? Document.root = none)
    (hm : Document.root ∈ d.nodes.lineage m) (hn : Reached d steps m n) : Document.root ∈ d.nodes.lineage n := by
  induction steps generalizing m with
  | nil => rwa [show n = m from hn]
  | cons s steps ih =>
    obtain ⟨k, hk, hn⟩ := hn
    have horder := mem_order_of_from h (hclimb s List.mem_cons_self) hm hk
    exact ih (fun t ht => hclimb t (List.mem_cons_of_mem s ht)) (root_mem_lineage_of_order h horder) hn

/-- A step whose nodes are all in the document gives them in document order. -/
theorem apply_eq (h : d.Sound) {inputs : List NodeId} {s : Step} (hin : ∀ n ∈ Step.apply d inputs s, n ∈ order d) :
    Step.apply d inputs s = (order d).filter (· ∈ Step.apply d inputs s) := by
  have hmem : ∀ n, n ∈ Step.apply d inputs s ↔ n ∈ (inputs.flatMap (s.from d)).eraseDups := fun n => by
    rw [mem_apply, List.mem_eraseDups, List.mem_flatMap]
  have hfilter := inDocumentOrder_eq h (eraseDups_nodup _) fun n hn => hin n ((hmem n).2 hn)
  rw [← Step.apply] at hfilter
  rw [hfilter]
  refine List.filter_congr fun n hn => ?_
  simp [hn]

/-- What steps in the document select stands in document order. -/
theorem select_eq_filter (h : d.Sound) {path : LocationPath}
    (hclimb : ∀ s ∈ path.steps, s.axis = .parent → d.parent? Document.root = none) {context : NodeId}
    (hcontext : Document.root ∈ d.nodes.lineage context) (hne : path.steps ≠ []) :
    path.select d context = (order d).filter (· ∈ path.select d context) := by
  have hstart : Document.root ∈ d.nodes.lineage (if path.absolute then Document.root else context) := by
    split
    · exact Forest.WellFormed.self_mem_lineage d.nodes _
    · exact hcontext
  obtain ⟨front, last, hsteps⟩ := (List.eq_nil_or_concat path.steps).resolve_left hne
  rw [List.concat_eq_append] at hsteps
  rw [hsteps] at hclimb
  rw [LocationPath.select, hsteps, List.foldl_append, List.foldl_cons, List.foldl_nil]
  refine apply_eq h fun n hn => ?_
  obtain ⟨m, hm, hn⟩ := mem_apply.1 hn
  obtain ⟨start, hmem, hreached⟩ := mem_foldl_apply.1 hm
  rw [List.mem_singleton.1 hmem] at hreached
  refine mem_order_of_from h (hclimb last (by simp)) ?_ hn
  exact root_mem_lineage_of_reached h (fun s hs => hclimb s (List.mem_append_left _ hs)) hstart hreached

/-- The elements that steps without climbing select are those elements of the document that are reached, in document
order. -/
theorem select_elements (h : d.Sound) {path : LocationPath} (hsteps : ∀ s ∈ path.steps, s.axis ≠ .parent)
    (hne : path.steps ≠ []) {context : NodeId} (hcontext : Document.root ∈ d.nodes.lineage context) :
    (path.select d context).filter d.isElement = d.elements.filter (· ∈ path.select d context) := by
  have helements : (order d).filter d.isElement = d.elements := by
    rw [order, List.filter_cons_of_neg (by simp [h.isElement_root])]
    exact List.filter_eq_self.2 fun n hn => (h.mem_elements_iff.1 hn).1
  have heq := congrArg (List.filter d.isElement)
    (select_eq_filter h (fun s hs hclimb => absurd hclimb (hsteps s hs)) hcontext hne)
  have hcomm : ((order d).filter (· ∈ path.select d context)).filter d.isElement =
      ((order d).filter d.isElement).filter (· ∈ path.select d context) := by
    rw [List.filter_filter, List.filter_filter]
    exact List.filter_congr fun n _ => Bool.and_comm _ _
  rw [hcomm, helements] at heq
  exact heq

end ElementLocator.XPath
