import ElementLocator.Proofs.Document.Order
import ElementLocator.Proofs.Document.Positions

/-!
# Walking up and walking down

Whether a node stands below another one is asked in two ways: by climbing from the lower node, and by walking down from
the upper one. The two ways agree. The walk down from the document node lists the attached elements, and does so in
document order; what it lists below any attached node stands in one piece.
-/

namespace ElementLocator.Document

variable {d : Document} {a n p s t x y : NodeId}

/-- The lowest node that contains both of the others. -/
structure LowestCommon (d : Document) (x y p : NodeId) : Prop where
  left : d.contains p x = true
  right : d.contains p y = true
  lowest : ∀ q, d.contains q x = true → d.contains q y = true → d.contains q p = true

/-- Among the children of the lowest node that contains both, the one that contains the first node stands in front of
the one that contains the second. -/
def OnEarlierBranch (d : Document) (x y : NodeId) : Prop :=
  ∃ p s t, d.LowestCommon x y p ∧ [s, t].Sublist (d.nodes.children p) ∧
    d.contains s x = true ∧ d.contains t y = true

/-- Climbing and walking down give the same answers. -/
structure WalksAgree (d : Document) : Prop where
  contains : ∀ a n, d.contains a n = true ↔ n = a ∨ n ∈ d.descendants a
  below : ∀ a n, d.isElement n = true → (n ∈ d.descendantElements a ↔ n ≠ a ∧ d.contains a n = true)
  once : ∀ a, (d.descendantElements a).Nodup
  attached : ∀ n, d.isElement n = true → (n ∈ d.elements ↔ n ≠ root ∧ d.isAttached n = true)
  ordered : ∀ x y, d.isElement x = true → d.isAttached x = true → d.isElement y = true → d.isAttached y = true →
    (d.Precedes x y ↔ d.Above x y ∨ d.OnEarlierBranch x y)
  contiguous : ∀ a, d.isAttached a = true → d.descendantElements a <:+: d.elements

namespace Sound

/-! ### Membership -/

/-- The descendants of a node are what it contains, the node itself apart. -/
theorem mem_descendants_iff_contains (h : d.Sound) : n ∈ d.descendants a ↔ n ≠ a ∧ d.contains a n = true := by
  rw [h.mem_descendants_iff, and_comm, contains, Forest.WellFormed.contains_iff]

/-- Every node contains itself. -/
theorem contains_self (d : Document) (n : NodeId) : d.contains n n = true :=
  Forest.WellFormed.contains_iff.2 (Forest.WellFormed.self_mem_lineage d.nodes n)

/-- A node contains itself and its descendants. -/
theorem contains_iff_mem_descendants (h : d.Sound) : d.contains a n = true ↔ n = a ∨ n ∈ d.descendants a := by
  rw [h.mem_descendants_iff_contains]
  by_cases hn : n = a
  · simp [hn, contains_self]
  · simp [hn]

/-- The descendant elements of a node are the elements that it contains, the node itself apart. -/
theorem mem_descendantElements_iff_contains (h : d.Sound) (hn : d.isElement n = true) :
    n ∈ d.descendantElements a ↔ n ≠ a ∧ d.contains a n = true := by
  rw [← h.mem_descendants_iff_contains, descendantElements, List.mem_filter, descendants, and_iff_left hn]

/-! ### Order -/

/-- The parent of two siblings is the lowest node that contains what is below the one and what is below the other. On
the climb from below a sibling, the common node comes behind the sibling, so it comes with the parent. -/
theorem lowestCommon_of_siblings (h : d.Sound) (hst : [s, t].Sublist (d.nodes.children p))
    (hx : s ∈ d.nodes.lineage x) (hy : t ∈ d.nodes.lineage y) : d.LowestCommon x y p := by
  have hs : s ∈ d.nodes.children p := hst.subset (by simp)
  have ht : t ∈ d.nodes.children p := hst.subset (by simp)
  have hps : d.nodes.parent? s = some p := (h.wellFormed.parent_iff s p).2 hs
  have hpt : d.nodes.parent? t = some p := (h.wellFormed.parent_iff t p).2 ht
  have hne : s ≠ t := by
    have hnodup := (h.wellFormed.nodup p).sublist hst
    simpa using hnodup
  have hbelow : s ∉ d.nodes.lineage y := fun hys => hne (h.wellFormed.eq_of_siblings hs ht hys hy)
  constructor
  · exact Forest.WellFormed.contains_iff.2 (h.wellFormed.mem_lineage_trans (h.wellFormed.parent_mem_lineage hps) hx)
  · exact Forest.WellFormed.contains_iff.2 (h.wellFormed.mem_lineage_trans (h.wellFormed.parent_mem_lineage hpt) hy)
  · intro q hqx hqy
    have hqx : q ∈ d.nodes.lineage x := Forest.WellFormed.contains_iff.1 hqx
    have hqy : q ∈ d.nodes.lineage y := Forest.WellFormed.contains_iff.1 hqy
    have hsq : s ∉ d.nodes.lineage q := fun hsq => hbelow (h.wellFormed.mem_lineage_trans hsq hqy)
    have hqs : q ∈ d.nodes.lineage s := (h.wellFormed.mem_lineage_total hqx hx).resolve_right hsq
    rw [h.wellFormed.lineage_of_parent hps, List.mem_cons] at hqs
    apply Forest.WellFormed.contains_iff.2
    apply hqs.resolve_left
    intro heq
    exact hsq (heq ▸ Forest.WellFormed.self_mem_lineage d.nodes q)

/-- A node is earlier than another if it is above it or on an earlier branch. -/
theorem earlier_iff (h : d.Sound) : d.Earlier x y ↔ d.Above x y ∨ d.OnEarlierBranch x y := by
  apply or_congr_right
  constructor
  · intro hbranches
    obtain ⟨p, s, t, hst, hx, hy⟩ := hbranches
    exact ⟨p, s, t, h.lowestCommon_of_siblings hst hx hy, hst, Forest.WellFormed.contains_iff.2 hx,
      Forest.WellFormed.contains_iff.2 hy⟩
  · intro hbranches
    obtain ⟨p, s, t, -, hst, hx, hy⟩ := hbranches
    exact ⟨p, s, t, hst, Forest.WellFormed.contains_iff.1 hx, Forest.WellFormed.contains_iff.1 hy⟩

/-- The list of elements has two of them in document order. -/
theorem precedes_iff_earlier (h : d.Sound) (hx : x ∈ d.elements) (hy : y ∈ d.elements) :
    d.Precedes x y ↔ d.Earlier x y := by
  have hpairwise : ∀ {m n}, d.Precedes m n → d.Earlier m n :=
    List.pairwise_iff_forall_sublist.1 h.elements_pairwise_earlier
  constructor
  · exact fun hxy => hpairwise hxy
  · intro hxy
    have hne : x ≠ y := fun heq => h.earlier_asymm hxy (heq ▸ hxy)
    have hplaces : d.elements.idxOf x ≠ d.elements.idxOf y := fun heq => hne ((List.idxOf_inj hx).1 heq)
    rcases Nat.lt_or_gt_of_ne hplaces with hlt | hgt
    · exact pair_sublist_of_idxOf_lt hy hlt
    · exact absurd (hpairwise (pair_sublist_of_idxOf_lt hx hgt)) (h.earlier_asymm hxy)

/-! ### Runs -/

/-- What the walk lists below an attached node stands in one piece. -/
theorem descendantElements_isInfix (h : d.Sound) (ha : d.isAttached a = true) :
    d.descendantElements a <:+: d.elements := by
  have hbelow : d.descendants a <:+: d.nodes.preorder root :=
    (List.drop_suffix 1 _).isInfix.trans (h.wellFormed.preorder_isInfix (isAttached_iff.1 ha))
  rw [h.elements_eq]
  exact hbelow.filter d.isElement

end Sound

/-- In every document that can be built, climbing and walking down agree. -/
theorem walksAgree_of_built (hd : d.Built) : d.WalksAgree := by
  have h := hd.sound
  constructor
  case contains => exact fun a n => h.contains_iff_mem_descendants
  case below => exact fun a n hn => h.mem_descendantElements_iff_contains hn
  case once => exact h.descendantElements_nodup
  case attached => exact fun n hn => h.mem_descendantElements_iff_contains hn
  case ordered =>
    intro x y hx hxroot hy hyroot
    rw [← h.earlier_iff]
    exact h.precedes_iff_earlier (h.mem_elements_iff.2 ⟨hx, hxroot⟩) (h.mem_elements_iff.2 ⟨hy, hyroot⟩)
  case contiguous => exact fun a ha => h.descendantElements_isInfix ha

/-- A list whose first item was moved below its last one, next to a note; a third item was taken out. -/
def movedItems : Document :=
  empty.edits
    [.element "ul", .append 0 1, .element "li", .append 1 2, .text "note", .append 1 3, .element "li", .append 1 4,
      .element "li", .append 1 5, .append 4 2, .detach 5]

/-- The moved item is listed behind the one that it is below, and the item that was taken out is not listed. -/
theorem walksAgree_movedItems :
    movedItems.Built ∧ movedItems.elements = [1, 4, 2] ∧ movedItems.descendantElements 4 = [2] ∧
      movedItems.contains 4 2 = true ∧ movedItems.isAttached 5 = false ∧ movedItems.WalksAgree :=
  have hbuilt : movedItems.Built := built_edits (by decide)
  ⟨hbuilt, by decide, by decide, by decide, by decide, walksAgree_of_built hbuilt⟩

end ElementLocator.Document
