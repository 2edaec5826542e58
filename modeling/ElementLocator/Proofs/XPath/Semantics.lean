import ElementLocator.Proofs.Document.Markup
import ElementLocator.Proofs.XPath.Selection

/-!
# The relational semantics of location paths

The axes are relations along the links of the document. A predicate keeps a node by its position among the nodes that
the earlier predicates have left of those for the same input; position and size are cardinalities of sets, and the
order of the document is all they depend on. A location path selects the ends of chains, each node of which the step
takes from the one before. What the evaluator computes are these sets, as lists in document order.
-/

namespace ElementLocator

/-! ### The value of a number -/

namespace Number

/-- The rational number that a finite number is. -/
def toRat? : Number → Option ℚ
  | .finite negative mantissa exponent => some ((if negative then -1 else 1) * mantissa * (2 : ℚ) ^ exponent)
  | _ => none

/-- Two to a natural exponent is the natural power. -/
theorem pow2_natCast (k : Nat) : pow2 k = 2 ^ k := by
  rw [pow2, Int.toNat_natCast]
  rfl

/-- Two to an exponent that is not positive counts as one, as the other side of the comparison is scaled instead. -/
theorem pow2_of_nonpos {e : Int} (h : e ≤ 0) : pow2 e = 1 := by
  rw [pow2, Int.toNat_of_nonpos h, Nat.pow_eq, Nat.pow_zero]

/-- A magnitude and a count, brought to one exponent, agree if the magnitude is the count. -/
theorem magnitude_eq_count_iff {m count : Nat} {e : Int} :
    m * pow2 (e - min e 0) = count * pow2 (0 - min e 0) ↔ (m : ℚ) * 2 ^ e = count := by
  rcases Int.le_total 0 e with he | he
  · obtain ⟨k, rfl⟩ := Int.eq_ofNat_of_zero_le he
    rw [min_eq_right he, Int.sub_zero, pow2_natCast, pow2_of_nonpos (by simp), Nat.mul_one, zpow_natCast]
    exact_mod_cast Iff.rfl
  · obtain ⟨k, hk⟩ := Int.eq_ofNat_of_zero_le (Int.neg_nonneg_of_nonpos he)
    have hneg : e = -(k : Int) := by omega
    rw [min_eq_left he, Int.sub_self, pow2_of_nonpos (Int.le_refl 0), Nat.mul_one, Int.zero_sub, hneg, Int.neg_neg,
      pow2_natCast, zpow_neg, zpow_natCast, ← div_eq_mul_inv, div_eq_iff (by positivity)]
    exact_mod_cast Iff.rfl

/-- A number equals a count if that is its value. A negative number equals a count only if both are zero. -/
theorem equals_ofNat_iff {v : Number} {count : Nat} (hcount : count < double.mantissaBound) :
    v.equals (ofNat count) = true ↔ v.toRat? = some (count : ℚ) := by
  rw [ofNat_eq_finite hcount]
  cases v with
  | nan => simp [equals, toRat?]
  | infinite negative => simp [equals, toRat?]
  | finite negative m e =>
    have hequals : (finite negative m e).equals (finite false count 0) = true ↔
        (m = 0 ∧ count = 0) ∨ (negative = false ∧ (m : ℚ) * 2 ^ e = count) := by
      rw [← magnitude_eq_count_iff]
      simp [equals]
    have hpow : (0 : ℚ) < 2 ^ e := by positivity
    rw [hequals, toRat?, Option.some.injEq]
    cases negative with
    | false =>
      rw [if_neg Bool.false_ne_true, one_mul]
      refine ⟨?_, fun h => .inr ⟨rfl, h⟩⟩
      rintro (⟨rfl, rfl⟩ | ⟨-, h⟩)
      · simp
      · exact h
    | true =>
      rw [if_pos rfl]
      refine ⟨?_, fun h => .inl ?_⟩
      · rintro (⟨rfl, rfl⟩ | ⟨hsign, -⟩)
        · simp
        · cases hsign
      · have hm : (0 : ℚ) ≤ m * 2 ^ e := by positivity
        have hsum : (m : ℚ) * 2 ^ e + count = 0 := by linarith
        have hcount : (count : ℚ) = 0 := by linarith [Nat.cast_nonneg (α := ℚ) count]
        rw [hcount, add_zero, mul_eq_zero, or_iff_left hpow.ne'] at hsum
        exact ⟨Nat.cast_eq_zero.1 hsum, Nat.cast_eq_zero.1 hcount⟩

end Number

namespace XPath

variable {d : Document} {m n x : NodeId}

/-! ### Sets of nodes -/

/-- The first node comes before the second in document order. -/
def Before (d : Document) (m n : NodeId) : Prop := [m, n].Sublist (order d)

/-- The nodes on the axis of a node. -/
def Axis.Leads (d : Document) (m n : NodeId) : Axis → Prop
  | .child => d.parent? n = some m ∧ d.isElement n = true
  | .descendant => (m ∈ d.nodes.lineage n ∧ n ≠ m) ∧ d.isElement n = true
  | .descendantOrSelf => n = m ∨ (m ∈ d.nodes.lineage n ∧ n ≠ m) ∧ d.isElement n = true
  | .self => n = m
  | .parent => d.parent? m = some n

/-- The place of a node in a set, counted from one in document order. -/
noncomputable def position (d : Document) (nodes : Set NodeId) (n : NodeId) : Nat :=
  {m ∈ nodes | m = n ∨ Before d m n}.ncard

/-- A number keeps the node at the position that is its value; any other value keeps it if it is true. -/
def Value.Keeps (position : Nat) : Value → Prop
  | .number value => value.toRat? = some (position : ℚ)
  | value => value.truthy = true

/-- What a predicate leaves of a set. -/
def Expr.kept (d : Document) (nodes : Set NodeId) (predicate : Expr) : Set NodeId :=
  {n ∈ nodes | (predicate.eval d ⟨n, position d nodes n, nodes.ncard⟩).Keeps (position d nodes n)}

/-- What a step takes from a node: what each predicate in turn leaves of the nodes on the axis that pass the test. -/
def Step.taken (d : Document) (s : Step) (m : NodeId) : Set NodeId :=
  s.predicates.foldl (Expr.kept d) {n | s.axis.Leads d m n ∧ s.test.passes d n = true}

/-- A chain leads from the first node to the second, each step taking the next node from the one before. -/
def Chained (d : Document) : List Step → NodeId → NodeId → Prop
  | [], m, n => n = m
  | s :: rest, m, n => ∃ k ∈ s.taken d m, Chained d rest k n

/-- The nodes that a location path selects. -/
def LocationPath.Selects (d : Document) (path : LocationPath) (context n : NodeId) : Prop :=
  Chained d path.steps (if path.absolute then Document.root else context) n

/-- Within the range in which counts are exact, a predicate holds if its value keeps the position. -/
theorem holds_iff {predicate : Expr} {focus : Focus} (hposition : focus.position < Number.double.mantissaBound) :
    predicate.holds d focus = true ↔ (predicate.eval d focus).Keeps focus.position := by
  rw [Expr.holds]
  cases predicate.eval d focus with
  | number value => exact Number.equals_ofNat_iff hposition
  | _ => exact Iff.rfl

/-! ### Lists in document order -/

/-- The order of the document lists each node before the later ones. -/
theorem order_pairwise (d : Document) : (order d).Pairwise (Before d) :=
  List.pairwise_iff_forall_sublist.2 id

/-- No node is before itself. -/
theorem Before.irrefl (h : d.Sound) (n : NodeId) : ¬Before d n n := fun hbefore =>
  not_pair_sublist_swap (order_nodup h) hbefore hbefore

variable {nodes : List NodeId} (hnodes : nodes.Sublist (order d))

include hnodes

/-- A list without repetitions has as many members as its set. -/
theorem ncard_eq_length (h : d.Sound) : {n | n ∈ nodes}.ncard = nodes.length := by
  have hset : {n | n ∈ nodes} = (nodes.toFinset : Set NodeId) := by simp
  rw [hset, Set.ncard_coe_finset, List.toFinset_card_of_nodup ((order_nodup h).sublist hnodes)]

/-- Of a list in document order, the nodes up to a place are those that do not come behind the node there. -/
theorem mem_take_iff (h : d.Sound) {k : Nat} (hk : nodes[k]? = some n) :
    m ∈ nodes.take (k + 1) ↔ m ∈ nodes ∧ (m = n ∨ Before d m n) := by
  obtain ⟨hlt, rfl⟩ := List.getElem?_eq_some_iff.1 hk
  have hpairwise := (order_pairwise d).sublist hnodes
  rw [List.pairwise_iff_getElem] at hpairwise
  constructor
  · intro hm
    obtain ⟨i, hi, rfl⟩ := List.mem_iff_getElem.1 hm
    rw [List.getElem_take]
    rw [List.length_take] at hi
    refine ⟨List.getElem_mem _, ?_⟩
    rcases Nat.lt_or_eq_of_le (Nat.le_of_lt_succ (Nat.lt_of_lt_of_le hi (Nat.min_le_left _ _))) with hik | rfl
    · exact .inr (hpairwise _ _ _ _ hik)
    · exact .inl rfl
  · rintro ⟨hm, hplace⟩
    obtain ⟨i, hi, rfl⟩ := List.mem_iff_getElem.1 hm
    have hik : i ≤ k := by
      by_contra hki
      have hafter := hpairwise k i hlt hi (Nat.lt_of_not_le hki)
      rcases hplace with heq | hbefore
      · exact Before.irrefl h _ (heq ▸ hafter)
      · exact not_pair_sublist_swap (order_nodup h) hafter hbefore
    rw [List.mem_take_iff_getElem]
    exact ⟨i, by omega, rfl⟩

/-- The position of a node is one more than its index. -/
theorem position_eq (h : d.Sound) {k : Nat} (hk : nodes[k]? = some n) : position d {m | m ∈ nodes} n = k + 1 := by
  have hlt := (List.getElem?_eq_some_iff.1 hk).1
  have hset : {m ∈ {m | m ∈ nodes} | m = n ∨ Before d m n} = {m | m ∈ nodes.take (k + 1)} :=
    Set.ext fun m => (mem_take_iff hnodes h hk).symm
  rw [position, hset, ncard_eq_length ((List.take_sublist _ _).trans hnodes) h, List.length_take]
  omega

/-- A predicate keeps the nodes of the list at which it holds. -/
theorem keep_eq (h : d.Sound) (hfew : (order d).length < Number.double.mantissaBound) (predicate : Expr) :
    {n | n ∈ keep d nodes predicate} = predicate.kept d {n | n ∈ nodes} := by
  have hsize := ncard_eq_length hnodes h
  have hholds : ∀ n k, nodes[k]? = some n → (predicate.holds d ⟨n, k + 1, nodes.length⟩ = true ↔
      (predicate.eval d ⟨n, position d {n | n ∈ nodes} n, {n | n ∈ nodes}.ncard⟩).Keeps
        (position d {n | n ∈ nodes} n)) := by
    intro n k hk
    have hlt : k < nodes.length := (List.getElem?_eq_some_iff.1 hk).1
    rw [hsize, position_eq hnodes h hk]
    exact holds_iff (Nat.lt_of_le_of_lt (Nat.succ_le_of_lt hlt) (Nat.lt_of_le_of_lt hnodes.length_le hfew))
  refine Set.ext fun n => mem_keep_iff.trans ⟨?_, ?_⟩
  · rintro ⟨k, hk, hkept⟩
    exact ⟨List.mem_of_getElem? hk, (hholds n k hk).1 hkept⟩
  · rintro ⟨hn, hkept⟩
    obtain ⟨k, hk⟩ := List.mem_iff_getElem?.1 hn
    exact ⟨k, hk, (hholds n k hk).2 hkept⟩

/-- Predicates keep, one after the other, the nodes at which they hold. -/
theorem foldl_keep_eq (h : d.Sound) (hfew : (order d).length < Number.double.mantissaBound) (predicates : List Expr) :
    {n | n ∈ predicates.foldl (keep d) nodes} = predicates.foldl (Expr.kept d) {n | n ∈ nodes} := by
  induction predicates generalizing nodes with
  | nil => rfl
  | cons predicate predicates ih =>
    rw [List.foldl_cons, List.foldl_cons, ← keep_eq hnodes h hfew]
    exact ih ((keep_sublist nodes predicate).trans hnodes)

omit hnodes

/-! ### Steps -/

/-- The nodes on an axis are those that the relation of the axis leads to. -/
theorem mem_axis_iff (h : d.Sound) {axis : Axis} : n ∈ axis.nodes d m ↔ axis.Leads d m n := by
  cases axis with
  | child => exact h.mem_elementChildren_iff
  | descendant => exact h.mem_descendantElements_iff
  | descendantOrSelf => exact List.mem_cons.trans (or_congr_right h.mem_descendantElements_iff)
  | self => exact List.mem_singleton
  | parent => exact Option.mem_toList

variable (hroot : d.parent? Document.root = none) (hm : Document.root ∈ d.nodes.lineage m)

include hroot hm

/-- The nodes on an axis that pass a test stand in document order. -/
theorem filter_axis_sublist (h : d.Sound) (axis : Axis) (test : NodeTest) :
    ((axis.nodes d m).filter (test.passes d ·)).Sublist (order d) := by
  have hdescendants : (d.descendantElements m).Sublist (order d) :=
    (h.descendantElements_sublist hm).trans (List.sublist_cons_self _ _)
  have hsingle : ∀ n ∈ axis.nodes d m, ([n].filter (test.passes d ·)).Sublist (order d) := by
    intro n hn
    have hn := root_mem_lineage_of_axis h (fun _ => hroot) hm hn
    rw [List.filter_cons, List.filter_nil]
    split
    · next htest => exact List.singleton_sublist.2 (mem_order_of_passes h hn htest)
    · exact List.nil_sublist _
  cases axis with
  | child => exact List.filter_sublist.trans ((h.elementChildren_sublist m).trans hdescendants)
  | descendant => exact List.filter_sublist.trans hdescendants
  | self => exact hsingle m List.mem_cons_self
  | parent =>
    cases hp : d.parent? m with
    | none => simp [Axis.nodes, hp]
    | some p =>
      have hparent := hsingle p (by simp [Axis.nodes, hp])
      simpa [Axis.nodes, hp] using hparent
  | descendantOrSelf =>
    rw [Axis.nodes, List.filter_cons]
    split
    · next htest =>
      refine (List.filter_sublist.cons_cons m).trans ?_
      rcases NodeTest.eq_root_or_isElement htest with rfl | helement
      · exact List.Sublist.refl _
      · have hsub := (h.wellFormed.preorder_sublist hm).filter d.isElement
        rw [h.descendantElements_cons, if_pos helement, ← h.elements_eq] at hsub
        exact hsub.trans (List.sublist_cons_self _ _)
    · exact List.filter_sublist.trans hdescendants

variable (hfew : (order d).length < Number.double.mantissaBound)

include hfew

/-- A step takes from a node of the document what the semantics says, in document order. -/
theorem from_eq (h : d.Sound) (s : Step) :
    (s.from d m).Sublist (order d) ∧ {n | n ∈ s.from d m} = s.taken d m := by
  have haxis := filter_axis_sublist hroot hm h s.axis s.test
  refine ⟨(from_sublist s m).trans haxis, ?_⟩
  rw [Step.from, foldl_keep_eq haxis h hfew, Step.taken]
  congr 1
  exact Set.ext fun n => List.mem_filter.trans (and_congr_left' (mem_axis_iff h))

/-- What steps reach is what their relations lead to. -/
theorem reached_iff_chained (h : d.Sound) {steps : List Step} : Reached d steps m n ↔ Chained d steps m n := by
  induction steps generalizing m with
  | nil => exact Iff.rfl
  | cons s steps ih =>
    have hfrom := (from_eq hroot hm hfew h s).2
    simp only [Reached, Chained, ← hfrom]
    refine exists_congr fun k => and_congr_right fun hk => ih ?_
    exact root_mem_lineage_of_order h (mem_order_of_from h (fun _ => hroot) hm hk)

omit hfew

/-- What a path selects in the document stands in document order. -/
theorem select_pairwise (h : d.Sound) (path : LocationPath) : (path.select d m).Pairwise (Before d) := by
  by_cases hne : path.steps = []
  · rw [LocationPath.select, hne]
    exact List.pairwise_singleton _ _
  · rw [select_eq_filter h (fun _ _ _ => hroot) hm hne]
    exact (order_pairwise d).sublist List.filter_sublist

omit hroot hm

/-- No more nodes stand in document order than were made. -/
theorem length_order_le (h : d.Sound) : (order d).length ≤ d.size := by
  have hsubset : order d ⊆ List.range d.size := fun n hn => by
    rw [List.mem_range]
    rcases (mem_order_iff h).1 hn with rfl | ⟨helement, -⟩
    · exact h.root_lt_size
    · exact Document.lt_size_of_isElement helement
  simpa using ((order_nodup h).subperm hsubset).length_le

/-- In a document whose document node has no parent, a location path selects from an attached node exactly the nodes
that a chain of its steps leads to, each once and in document order. Of the nodes that a step takes, one more predicate
whose value is a number keeps those at the position that is this number. -/
theorem select_iff_selects (hd : d.Built) (hroot : d.parent? Document.root = none) (hsize : d.size < 2 ^ 53)
    (path : LocationPath) {context : NodeId} (hcontext : d.isAttached context = true) :
    ((path.select d context).Pairwise (Before d) ∧ (path.select d context).Nodup) ∧
      (∀ n, n ∈ path.select d context ↔ path.Selects d context n) ∧
      ∀ m, d.isAttached m = true → ∀ (s : Step) (predicate : Expr) (k : Nat) (n : NodeId) (value : Number),
        (s.from d m)[k]? = some n → predicate.eval d ⟨n, k + 1, (s.from d m).length⟩ = .number value →
        (n ∈ ({ s with predicates := s.predicates ++ [predicate] } : Step).from d m ↔
          value.toRat? = some ((k + 1 : Nat) : ℚ)) := by
  have h := hd.sound
  have hfew : (order d).length < Number.double.mantissaBound := Nat.lt_of_le_of_lt (length_order_le h) hsize
  have hattached := Document.Sound.isAttached_iff.1 hcontext
  have hpairwise := select_pairwise hroot hattached h path
  have hnodup : (path.select d context).Nodup := hpairwise.imp fun hbefore heq => by
    subst heq
    exact Before.irrefl h _ hbefore
  refine ⟨⟨hpairwise, hnodup⟩, fun n => ?_, ?_⟩
  · have hstart : Document.root ∈ d.nodes.lineage (if path.absolute then Document.root else context) := by
      split
      · exact Forest.WellFormed.self_mem_lineage d.nodes _
      · exact hattached
    rw [mem_select, reached_iff_chained hroot hstart hfew h, LocationPath.Selects]
  · intro m hm s predicate k n value hk hvalue
    have hsub := (from_eq hroot (Document.Sound.isAttached_iff.1 hm) hfew h s).1
    have hlt : k < (s.from d m).length := (List.getElem?_eq_some_iff.1 hk).1
    have hposition : k + 1 < Number.double.mantissaBound :=
      Nat.lt_of_le_of_lt (Nat.succ_le_of_lt hlt) (Nat.lt_of_le_of_lt hsub.length_le hfew)
    rw [from_concat, mem_keep_iff_of_getElem? ((order_nodup h).sublist hsub) hk, holds_iff hposition, hvalue]
    rfl

/-- A page whose items stand at different depths. -/
def itemsPage : Document :=
  (((Document.empty.addChild 0 (Document.elementContent "main" [])).addChild 1
    (Document.elementContent "div" [])).addChild 2
    (Document.elementContent "li" [])).addChild 1
    (Document.elementContent "li" [])

/-- The page with items arises from edits. -/
theorem built_itemsPage : itemsPage.Built := by
  have hmain := (Document.Built.empty.add_element "main" []).addChild (show 0 < Document.empty.size by decide)
  have hdiv := (hmain.add_element "div" []).addChild (show 1 < Document.size _ by decide)
  have hdeep := (hdiv.add_element "li" []).addChild (show 2 < Document.size _ by decide)
  exact (hdeep.add_element "li" []).addChild (by decide)

/-- The path `.//LI`. -/
def itemsPath : LocationPath := ⟨false, [.here, .anywhere, ⟨.child, .name "LI", []⟩]⟩

/-- On the page with items, the path selects two of them, in document order and as the relations say. -/
theorem select_iff_selects_itemsPage :
    itemsPath.select itemsPage 1 = [3, 4] ∧
      ((itemsPath.select itemsPage 1).Pairwise (Before itemsPage) ∧ (itemsPath.select itemsPage 1).Nodup) ∧
      (∀ n, n ∈ itemsPath.select itemsPage 1 ↔ itemsPath.Selects itemsPage 1 n) ∧
      ∀ m, itemsPage.isAttached m = true → ∀ (s : Step) (predicate : Expr) (k : Nat) (n : NodeId) (value : Number),
        (s.from itemsPage m)[k]? = some n →
        predicate.eval itemsPage ⟨n, k + 1, (s.from itemsPage m).length⟩ = .number value →
        (n ∈ ({ s with predicates := s.predicates ++ [predicate] } : Step).from itemsPage m ↔
          value.toRat? = some ((k + 1 : Nat) : ℚ)) :=
  ⟨by cbv, select_iff_selects built_itemsPage (by decide) (by decide) itemsPath (by decide)⟩

end XPath

end ElementLocator
