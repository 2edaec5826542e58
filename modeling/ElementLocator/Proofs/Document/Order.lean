import ElementLocator.Proofs.Document.History
import ElementLocator.Proofs.Document.Navigation

/-!
# Listings in document order

The links of a document decide which of two nodes comes first: a node comes before those below it, and what stands below
a sibling comes before what stands below a later one. The pre-order lists nodes in just this order, so a filter of the
elements of a document is the listing of those that pass it.
-/

namespace ElementLocator.Document

variable {d : Document} {a n p x y : NodeId}

/-- The node comes first: it is above the other one, or the two are at or below two siblings that stand in this
order. -/
def Earlier (d : Document) (x y : NodeId) : Prop :=
  d.Above x y ∨ ∃ p s t, [s, t].Sublist (d.nodes.children p) ∧ s ∈ d.nodes.lineage x ∧ t ∈ d.nodes.lineage y

/-- The list names the attached elements with a property, each once and in document order. -/
structure Lists (d : Document) (found : List NodeId) (P : NodeId → Prop) : Prop where
  ordered : found.Pairwise d.Earlier
  once : found.Nodup
  mem : ∀ n, n ∈ found ↔ d.isElement n = true ∧ d.isAttached n = true ∧ P n

namespace Sound

/-- What comes first in document order comes first in some pre-order. -/
theorem exists_preorder_of_earlier (h : d.Sound) (hxy : d.Earlier x y) : ∃ a, [x, y].Sublist (d.nodes.preorder a) := by
  rcases hxy with habove | ⟨p, s, t, hst, hx, hy⟩
  · have hy : y ∈ d.nodes.preorder x :=
      h.wellFormed.mem_preorder_iff.2 (h.wellFormed.mem_lineage_iff_above.2 (.inr habove))
    rw [h.wellFormed.preorder_eq, List.mem_cons] at hy
    refine ⟨x, h.wellFormed.preorder_eq x ▸ (List.singleton_sublist.2 (hy.resolve_left ?_)).cons_cons x⟩
    rintro rfl
    exact h.wellFormed.not_above_self _ habove
  · exact ⟨p, h.wellFormed.pair_sublist_of_siblings hst hx hy⟩

/-- Of two nodes at most one comes first, and no node comes before itself. If both came first, the upper one of the two
tops would have both orders in its pre-order. -/
theorem earlier_asymm (h : d.Sound) (hxy : d.Earlier x y) : ¬d.Earlier y x := by
  intro hyx
  obtain ⟨a, ha⟩ := h.exists_preorder_of_earlier hxy
  obtain ⟨b, hb⟩ := h.exists_preorder_of_earlier hyx
  have hax := h.wellFormed.mem_preorder_iff.1 (ha.subset (List.mem_cons_self (a := x)))
  have hbx := h.wellFormed.mem_preorder_iff.1 (hb.subset (by simp : x ∈ [y, x]))
  rcases h.wellFormed.mem_lineage_total hax hbx with hab | hba
  · exact not_pair_sublist_swap (h.wellFormed.preorder_nodup a) ha (hb.trans (h.wellFormed.preorder_sublist hab))
  · exact not_pair_sublist_swap (h.wellFormed.preorder_nodup b) (ha.trans (h.wellFormed.preorder_sublist hba)) hb

/-- A pre-order is in document order. -/
theorem preorder_pairwise_earlier (h : d.Sound) (n : NodeId) : (d.nodes.preorder n).Pairwise d.Earlier := by
  induction n using h.wellFormed.induction_from_bottom with
  | step n ih =>
    rw [h.wellFormed.preorder_eq, List.pairwise_cons, List.pairwise_flatMap]
    refine ⟨fun y hy => .inl ?_, ih, List.pairwise_iff_forall_sublist.2 fun {s t} hst x hx y hy => ?_⟩
    · obtain ⟨c, hc, hy⟩ := List.mem_flatMap.1 hy
      have hparent : d.nodes.parent? c = some n := (h.wellFormed.parent_iff c n).2 hc
      rcases h.wellFormed.mem_lineage_iff_above.1 (h.wellFormed.mem_preorder_iff.1 hy) with rfl | habove
      · exact .single hparent
      · exact habove.tail hparent
    · exact .inr ⟨n, s, t, hst, h.wellFormed.mem_preorder_iff.1 hx, h.wellFormed.mem_preorder_iff.1 hy⟩

/-- The elements of the document are listed in document order. -/
theorem elements_pairwise_earlier (h : d.Sound) : d.elements.Pairwise d.Earlier := by
  rw [h.elements_eq]
  exact (h.preorder_pairwise_earlier root).filter _

/-- The elements of the document that pass a test are listed by filtering. -/
theorem lists_filter (h : d.Sound) (p : NodeId → Bool) : d.Lists (d.elements.filter p) (p · = true) where
  ordered := h.elements_pairwise_earlier.filter _
  once := (h.descendantElements_nodup root).filter _
  mem n := by rw [List.mem_filter, h.mem_elements_iff, and_assoc]

/-- The elements below an attached node, in document order, are those of the document that are below it. -/
theorem mem_descendantElements_iff_above (h : d.Sound) (ha : d.isAttached a = true) :
    n ∈ d.descendantElements a ↔ n ∈ d.elements ∧ d.Above a n := by
  rw [h.mem_descendantElements_iff, h.mem_elements_iff]
  constructor
  · rintro ⟨⟨hlineage, hne⟩, hn⟩
    have habove := (h.wellFormed.mem_lineage_iff_above.1 hlineage).resolve_left hne.symm
    exact ⟨⟨hn, isAttached_iff.2 (h.wellFormed.mem_lineage_trans (isAttached_iff.1 ha) hlineage)⟩, habove⟩
  · rintro ⟨⟨hn, -⟩, habove⟩
    refine ⟨⟨h.wellFormed.mem_lineage_iff_above.2 (.inr habove), ?_⟩, hn⟩
    rintro rfl
    exact h.wellFormed.not_above_self _ habove

end Sound

end ElementLocator.Document
