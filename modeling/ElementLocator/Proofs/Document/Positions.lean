import ElementLocator.Proofs.Document.Navigation
import ElementLocator.Proofs.Forest.Moves

/-!
# Positions among siblings

The positional index of an element is its place in the list of its parent's children with the same tag. Siblings
with the same tag are therefore told apart by their index, and a smaller index stands in front. There is a conflict
about the place exactly if the list has another entry.
-/

namespace ElementLocator.Document

/-- The children of a node that are elements with the tag, in order. -/
def childrenWithTag (d : Document) (p : NodeId) (tag : String) : List NodeId :=
  (d.elementChildren p).filter fun m => d.localName? m == some tag

/-- No node has so many element children that the number of one would not fit 31 bits. -/
def FewSiblings (d : Document) : Prop := ∀ p, (d.elementChildren p).length < 2 ^ 31

/-- Few siblings in the document are few siblings of one tag. -/
theorem FewSiblings.length_childrenWithTag_lt {d : Document} (h : d.FewSiblings) (p : NodeId) (tag : String) :
    (d.childrenWithTag p tag).length < 2 ^ 31 :=
  Nat.lt_of_le_of_lt (List.length_filter_le _ _) (h p)

/-- Of two elements of a list the one at the smaller place stands in front. -/
theorem pair_sublist_of_idxOf_lt {s t : NodeId} {l : List NodeId} (ht : t ∈ l) (hlt : l.idxOf s < l.idxOf t) :
    [s, t].Sublist l := by
  induction l with
  | nil => cases ht
  | cons a l ih =>
    have hta : a ≠ t := by
      rintro rfl
      rw [List.idxOf_cons_self] at hlt
      exact Nat.not_lt_zero _ hlt
    have htl : t ∈ l := (List.mem_cons.1 ht).resolve_left fun heq => hta heq.symm
    by_cases hsa : a = s
    · rw [hsa]
      exact (List.singleton_sublist.2 htl).cons_cons s
    · rw [List.idxOf_cons_ne _ hsa, List.idxOf_cons_ne _ hta] at hlt
      exact (ih htl (Nat.lt_of_succ_lt_succ hlt)).cons a

namespace Sound

variable {d : Document} {n p s t : NodeId} {tag : String}

/-- The children with a tag are the children with that local name. -/
theorem mem_childrenWithTag_iff (h : d.Sound) :
    n ∈ d.childrenWithTag p tag ↔ d.parent? n = some p ∧ d.localName? n = some tag := by
  rw [childrenWithTag, List.mem_filter, h.mem_elementChildren_iff, beq_iff_eq]
  exact ⟨fun hn => ⟨hn.1.1, hn.2⟩, fun hn => ⟨⟨hn.1, isElement_of_localName hn.2⟩, hn.2⟩⟩

/-- No child with a tag is listed twice. -/
theorem childrenWithTag_nodup (h : d.Sound) (p : NodeId) (tag : String) : (d.childrenWithTag p tag).Nodup :=
  ((h.wellFormed.nodup p).filter _).filter _

/-- The children with a tag keep the order of the children. -/
theorem childrenWithTag_sublist (p : NodeId) (tag : String) :
    (d.childrenWithTag p tag).Sublist (d.nodes.children p) :=
  List.filter_sublist.trans List.filter_sublist

/-- The children with the tag of one of them are those in front of it, that one, and those behind it. -/
theorem childrenWithTag_eq_siblings (h : d.Sound) (hn : n ∈ d.childrenWithTag p tag) : d.childrenWithTag p tag =
    ((d.precedingElements n).filter fun m => d.localName? m == d.localName? n).reverse ++
      n :: (d.followingElements n).filter fun m => d.localName? m == d.localName? n := by
  obtain ⟨hp, ht⟩ := h.mem_childrenWithTag_iff.1 hn
  rw [childrenWithTag, elementChildren, h.wellFormed.children_eq_siblings hp, precedingElements, followingElements, ht,
    List.filter_append, List.filter_append, List.filter_reverse, List.filter_reverse,
    List.filter_cons_of_pos (isElement_of_localName ht), List.filter_cons_of_pos (by simp [ht])]

/-- The positional index is the place among the children with the same tag. -/
theorem positionalIndex_eq (h : d.Sound) (hp : d.parent? n = some p) (ht : d.localName? n = some tag) :
    d.positionalIndex n = (d.childrenWithTag p tag).idxOf n := by
  have hn := h.mem_childrenWithTag_iff.2 ⟨hp, ht⟩
  have hnodup := h.childrenWithTag_nodup p tag
  rw [h.childrenWithTag_eq_siblings hn, List.nodup_append] at hnodup
  rw [h.childrenWithTag_eq_siblings hn,
    List.idxOf_append_of_notMem fun hmem => hnodup.2.2 n hmem n List.mem_cons_self rfl, List.idxOf_cons_self,
    Nat.add_zero, List.length_reverse, positionalIndex, List.countP_eq_length_filter]

/-- There is a conflict about the place of a child exactly if some other child has the same tag. -/
theorem hasPositionalConflict_iff (h : d.Sound) (hn : n ∈ d.childrenWithTag p tag) :
    d.hasPositionalConflict n = true ↔ 1 < (d.childrenWithTag p tag).length := by
  have hbehind : (d.followingElements n).any (fun m => d.localName? m == d.localName? n) = true ↔
      0 < ((d.followingElements n).filter fun m => d.localName? m == d.localName? n).length := by
    rw [List.any_eq_true, List.length_filter_pos_iff]
  rw [hasPositionalConflict, Bool.or_eq_true, decide_eq_true_eq, hbehind, h.childrenWithTag_eq_siblings hn,
    List.length_append, List.length_reverse, List.length_cons, positionalIndex, List.countP_eq_length_filter]
  omega

/-- The position of a child among those with its tag is its index in their list. -/
theorem getElem?_childrenWithTag_iff (h : d.Sound) {k : Nat} :
    (d.childrenWithTag p tag)[k]? = some n ↔ n ∈ d.childrenWithTag p tag ∧ d.positionalIndex n = k := by
  constructor
  · intro hn
    have hmem := List.mem_of_getElem? hn
    obtain ⟨hp, ht⟩ := h.mem_childrenWithTag_iff.1 hmem
    obtain ⟨hlt, rfl⟩ := List.getElem?_eq_some_iff.1 hn
    exact ⟨hmem, (h.positionalIndex_eq hp ht).trans ((h.childrenWithTag_nodup p tag).idxOf_getElem k hlt)⟩
  · intro hplace
    obtain ⟨hmem, rfl⟩ := hplace
    obtain ⟨hp, ht⟩ := h.mem_childrenWithTag_iff.1 hmem
    rw [h.positionalIndex_eq hp ht]
    exact List.getElem?_idxOf hmem

/-- The position of a child is below the number of the children with its tag. -/
theorem positionalIndex_lt_length (h : d.Sound) (hn : n ∈ d.childrenWithTag p tag) :
    d.positionalIndex n < (d.childrenWithTag p tag).length := by
  obtain ⟨hp, ht⟩ := h.mem_childrenWithTag_iff.1 hn
  rw [h.positionalIndex_eq hp ht]
  exact List.idxOf_lt_length_iff.2 hn

/-- Every place among the children with a tag is the place of exactly one of them. -/
theorem bijOn_positionalIndex (h : d.Sound) (p : NodeId) (tag : String) :
    Set.BijOn d.positionalIndex {n | n ∈ d.childrenWithTag p tag} (Set.Iio (d.childrenWithTag p tag).length) := by
  refine ⟨fun n hn => h.positionalIndex_lt_length hn, ?_, ?_⟩
  · intro m hm n hn heq
    have hplace := h.getElem?_childrenWithTag_iff.2 ⟨hm, heq⟩
    exact Option.some.inj (hplace.symm.trans (h.getElem?_childrenWithTag_iff.2 ⟨hn, rfl⟩))
  · intro k hk
    exact ⟨_, h.getElem?_childrenWithTag_iff.1 (List.getElem?_eq_getElem hk)⟩

/-- An index is less than the number of sibling elements. -/
theorem positionalIndex_lt (h : d.Sound) (hp : d.parent? n = some p) (ht : d.localName? n = some tag) :
    d.positionalIndex n < (d.elementChildren p).length :=
  Nat.lt_of_lt_of_le (h.positionalIndex_lt_length (h.mem_childrenWithTag_iff.2 ⟨hp, ht⟩)) (List.length_filter_le _ _)

/-- Where no node has too many children, the number of an element, counted from one, fits 31 bits. -/
theorem positionalIndex_add_one_lt (h : d.Sound) (hfew : d.FewSiblings) (hn : d.isElement n = true) :
    d.positionalIndex n + 1 < 2 ^ 31 := by
  obtain ⟨tag, ht⟩ := Option.isSome_iff_exists.1 hn
  cases hp : d.parent? n with
  | none =>
    have hnone : d.nodes.parent? n = none := hp
    have hzero : d.positionalIndex n = 0 := by
      simp [positionalIndex, precedingElements, Forest.preceding, hnone]
    rw [hzero]
    decide
  | some p => exact Nat.lt_of_le_of_lt (h.positionalIndex_lt hp ht) (hfew p)

/-- A document with few nodes has few siblings. -/
theorem fewSiblings_of_size (h : d.Sound) (hsize : d.size < 2 ^ 31) : d.FewSiblings := by
  intro p
  have hle : (d.nodes.children p).length ≤ d.size := by
    have hsubset : d.nodes.children p ⊆ List.range d.size := fun c hc =>
      List.mem_range.2 (Forest.lt_size_of_parent ((h.wellFormed.parent_iff c p).2 hc))
    have hsubperm := (h.wellFormed.nodup p).subperm hsubset
    simpa using hsubperm.length_le
  exact Nat.lt_of_le_of_lt ((List.length_filter_le _ _).trans hle) hsize

/-- Siblings with the same tag are equal, or the one with the smaller index stands in front. -/
theorem eq_or_pair_sublist_of_positionalIndex_le (h : d.Sound) (hs : d.parent? s = some p) (ht : d.parent? t = some p)
    (hstag : d.localName? s = some tag) (httag : d.localName? t = some tag)
    (hle : d.positionalIndex s ≤ d.positionalIndex t) : t = s ∨ [s, t].Sublist (d.nodes.children p) := by
  have hsmem := h.mem_childrenWithTag_iff.2 ⟨hs, hstag⟩
  have htmem := h.mem_childrenWithTag_iff.2 ⟨ht, httag⟩
  rw [h.positionalIndex_eq hs hstag, h.positionalIndex_eq ht httag] at hle
  rcases Nat.lt_or_eq_of_le hle with hlt | heq
  · exact .inr ((pair_sublist_of_idxOf_lt htmem hlt).trans (childrenWithTag_sublist p tag))
  · exact .inl ((List.idxOf_inj hsmem).1 heq).symm

/-- Of two children with the same tag the one in front has the smaller index. -/
theorem positionalIndex_lt_of_pair_sublist (h : d.Sound) (hs : s ∈ d.childrenWithTag p tag)
    (ht : t ∈ d.childrenWithTag p tag) (hpair : [s, t].Sublist (d.nodes.children p)) :
    d.positionalIndex s < d.positionalIndex t := by
  obtain ⟨hsparent, hstag⟩ := h.mem_childrenWithTag_iff.1 hs
  obtain ⟨htparent, httag⟩ := h.mem_childrenWithTag_iff.1 ht
  have hnodup := h.wellFormed.nodup p
  by_contra hlt
  rcases h.eq_or_pair_sublist_of_positionalIndex_le htparent hsparent httag hstag (Nat.le_of_not_lt hlt) with
    heq | hswap
  · subst heq
    exact not_pair_sublist_swap hnodup hpair hpair
  · exact not_pair_sublist_swap hnodup hpair hswap

end Sound

end ElementLocator.Document
