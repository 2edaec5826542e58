import ElementLocator.Proofs.Document.Built
import ElementLocator.Proofs.Forest.Order

/-!
# Moving about in a sound document

The reading functions of a document in terms of its links: which nodes are children, descendants, attached or
elements of the document, and how the element lineage and the chain below the document element grow by one parent
at a time.
-/

namespace ElementLocator.Document

variable {d : Document} {a b n p x y : NodeId}

/-- Everything below a node, as a walk down finds it. -/
def descendants (d : Document) (a : NodeId) : List NodeId := (d.nodes.preorder a).drop 1

/-- The node comes before the other one in document order. -/
def Precedes (d : Document) (x y : NodeId) : Prop := [x, y].Sublist d.elements

/-- A parent element is a parent that is an element. -/
theorem parentElement?_eq_some_iff : d.parentElement? n = some p ↔ d.parent? n = some p ∧ d.isElement p = true := by
  simp [parentElement?, Option.filter_eq_some_iff]

/-- Only elements have a local name. -/
theorem isElement_of_localName {tag : String} (h : d.localName? n = some tag) : d.isElement n = true := by
  simp [isElement, h]

/-- Elements exist. -/
theorem lt_size_of_isElement (h : d.isElement n = true) : n < d.size := by
  obtain ⟨tag, htag⟩ := Option.isSome_iff_exists.1 h
  obtain ⟨attributes, hcontent⟩ := localName?_eq_some_iff.1 htag
  exact Forest.lt_size_of_value hcontent

namespace Sound

/-! ### Children and descendants -/

/-- The element children of a node are the elements whose parent it is. -/
theorem mem_elementChildren_iff (h : d.Sound) :
    n ∈ d.elementChildren p ↔ d.parent? n = some p ∧ d.isElement n = true := by
  simp [elementChildren, parent?, h.wellFormed.parent_iff]

/-- The descendant elements are the elements in the pre-order of the subtrees of the children. -/
theorem descendantElements_eq (h : d.Sound) (a : NodeId) :
    d.descendantElements a = ((d.nodes.children a).flatMap d.nodes.preorder).filter d.isElement := by
  rw [descendantElements, h.wellFormed.preorder_eq]
  rfl

/-- The walk down from a node finds what has the node above it. -/
theorem mem_descendants_iff (h : d.Sound) : n ∈ d.descendants a ↔ a ∈ d.nodes.lineage n ∧ n ≠ a := by
  have hnodup := h.wellFormed.preorder_nodup a
  have hmem := @Forest.WellFormed.mem_preorder_iff _ _ a n h.wellFormed
  rw [h.wellFormed.preorder_eq, List.nodup_cons] at hnodup
  rw [h.wellFormed.preorder_eq, List.mem_cons] at hmem
  rw [descendants, h.wellFormed.preorder_eq, List.drop_one, List.tail_cons, ← hmem]
  constructor
  · intro hn
    exact ⟨.inr hn, fun heq => hnodup.1 (heq ▸ hn)⟩
  · intro hn
    exact hn.1.resolve_left hn.2

/-- The descendant elements of a node are the elements in whose lineage it is, the node itself apart. -/
theorem mem_descendantElements_iff (h : d.Sound) :
    n ∈ d.descendantElements a ↔ (a ∈ d.nodes.lineage n ∧ n ≠ a) ∧ d.isElement n = true := by
  rw [← h.mem_descendants_iff]
  exact List.mem_filter

/-- The elements below a node are the elements of its pre-order, the node itself aside. -/
theorem descendantElements_cons (h : d.Sound) (a : NodeId) :
    (d.nodes.preorder a).filter d.isElement =
      if d.isElement a = true then a :: d.descendantElements a else d.descendantElements a := by
  rw [h.descendantElements_eq, h.wellFormed.preorder_eq, List.filter_cons]

/-- The elements of the document are those in the pre-order of its root. -/
theorem elements_eq (h : d.Sound) : d.elements = (d.nodes.preorder root).filter d.isElement := by
  rw [h.descendantElements_cons, if_neg (by simp [h.isElement_root])]
  rfl

/-- A node is attached if the root is in its lineage. -/
theorem isAttached_iff : d.isAttached n = true ↔ root ∈ d.nodes.lineage n :=
  Forest.WellFormed.contains_iff

/-- The elements of the document are the attached elements. -/
theorem mem_elements_iff (h : d.Sound) :
    n ∈ d.elements ↔ d.isElement n = true ∧ d.isAttached n = true := by
  rw [h.elements_eq, List.mem_filter, h.wellFormed.mem_preorder_iff, isAttached_iff, and_comm]

/-- An element with the root in its lineage is one of the document. -/
theorem mem_elements_of_lineage (h : d.Sound) (hn : d.isElement n = true) (hroot : root ∈ d.nodes.lineage n) :
    n ∈ d.elements :=
  h.mem_elements_iff.2 ⟨hn, isAttached_iff.2 hroot⟩

/-- An element whose parent is attached is an element of the document. -/
theorem mem_elements_of_parent (h : d.Sound) (hn : d.isElement n = true) (hp : d.parent? n = some p)
    (hroot : root ∈ d.nodes.lineage p) : n ∈ d.elements :=
  h.mem_elements_of_lineage hn (h.wellFormed.mem_lineage_trans hroot (h.wellFormed.parent_mem_lineage hp))

/-- No descendant element is listed twice. -/
theorem descendantElements_nodup (h : d.Sound) (a : NodeId) : (d.descendantElements a).Nodup := by
  have hnodup := h.wellFormed.preorder_nodup a
  rw [h.wellFormed.preorder_eq] at hnodup
  rw [h.descendantElements_eq]
  exact (List.nodup_cons.1 hnodup).2.filter _

/-- The elements below an attached node are elements of the document, in document order. -/
theorem descendantElements_sublist (h : d.Sound) (ha : root ∈ d.nodes.lineage a) :
    (d.descendantElements a).Sublist d.elements := by
  rw [h.elements_eq]
  refine List.Sublist.trans ?_ ((h.wellFormed.preorder_sublist ha).filter d.isElement)
  exact (List.drop_sublist 1 _).filter _

/-- The children of a node stand in the order of the elements below it. -/
theorem elementChildren_sublist (h : d.Sound) (a : NodeId) :
    (d.elementChildren a).Sublist (d.descendantElements a) := by
  have hchildren : (d.nodes.children a).Sublist ((d.nodes.children a).flatMap d.nodes.preorder) := by
    simpa using List.Sublist.flatMap_right (d.nodes.children a) fun c _ =>
      List.singleton_sublist.2 (h.wellFormed.self_mem_preorder c)
  rw [h.descendantElements_eq]
  exact hchildren.filter _

/-- The order of two elements in a pre-order is their order among the elements below its top. -/
theorem pair_sublist_descendantElements (h : d.Sound) (hpair : [x, y].Sublist (d.nodes.preorder a))
    (hx : d.isElement x = true) (hy : d.isElement y = true) (hxa : x ≠ a) :
    [x, y].Sublist (d.descendantElements a) := by
  have helements := hpair.filter d.isElement
  rw [h.descendantElements_cons] at helements
  simp only [List.filter_cons, hx, hy, if_true, List.filter_nil] at helements
  split at helements
  · rcases List.sublist_cons_iff.1 helements with hsub | ⟨rest, hrest, -⟩
    · exact hsub
    · exact absurd (List.cons.inj hrest).1 hxa
  · exact helements

/-- Two elements of an attached subtree stand in the document in the order of its pre-order. -/
theorem precedes_of_preorder (h : d.Sound) (ha : root ∈ d.nodes.lineage a)
    (hpair : [x, y].Sublist (d.nodes.preorder a)) (hx : d.isElement x = true) (hy : d.isElement y = true) :
    d.Precedes x y := by
  have hroot := hpair.trans (h.wellFormed.preorder_sublist ha)
  refine h.pair_sublist_descendantElements hroot hx hy ?_
  rintro rfl
  simp [h.isElement_root] at hx

/-! ### Attached elements -/

/-- An attached element has a parent, which is attached as well. -/
theorem exists_parent (h : d.Sound) (hn : d.isElement n = true) (hroot : root ∈ d.nodes.lineage n) :
    ∃ p, d.parent? n = some p ∧ root ∈ d.nodes.lineage p := by
  rcases h.wellFormed.mem_lineage_iff.1 hroot with heq | hp
  · simp [← heq, h.isElement_root] at hn
  · exact hp

/-- The parent of an attached element is attached. -/
theorem root_mem_lineage_parent (h : d.Sound) (hn : d.isElement n = true) (hroot : root ∈ d.nodes.lineage n)
    (hp : d.parent? n = some p) : root ∈ d.nodes.lineage p := by
  obtain ⟨q, hq, hqroot⟩ := h.exists_parent hn hroot
  rw [hp, Option.some.injEq] at hq
  rwa [hq]

/-- Where only elements nest, an attached element without a parent element is a child of the document node. -/
theorem parent_eq_root (h : d.Sound) (hnest : d.ElementsNest) (hn : d.isElement n = true)
    (hroot : root ∈ d.nodes.lineage n) (hp : d.parentElement? n = none) : d.parent? n = some root := by
  obtain ⟨p, hparent, -⟩ := h.exists_parent hn hroot
  rcases hnest p n hparent with rfl | helement
  · exact hparent
  · exact absurd (parentElement?_eq_some_iff.2 ⟨hparent, helement⟩) (by simp [hp])

/-! ### Element lineages -/

/-- An element lineage begins with its node. -/
theorem exists_elementLineage_eq_cons (d : Document) (n : NodeId) :
    ∃ above, d.elementLineage n = n :: above := ⟨_, rfl⟩

/-- The lineage of elements goes on with that of the parent element. -/
theorem elementLineage_of_parent (h : d.Sound) (hp : d.parentElement? n = some p) :
    d.elementLineage n = n :: d.elementLineage p := by
  obtain ⟨hparent, helement⟩ := parentElement?_eq_some_iff.1 hp
  obtain ⟨above, hlineage⟩ := Forest.WellFormed.exists_lineage_eq_cons d.nodes p
  rw [elementLineage, elementLineage, h.wellFormed.lineage_of_parent hparent, List.drop_one, List.tail_cons,
    hlineage, List.takeWhile_cons_of_pos helement, List.drop_one, List.tail_cons]

/-- Without a parent element the lineage of elements is the node alone. -/
theorem elementLineage_of_none (h : d.Sound) (hp : d.parentElement? n = none) : d.elementLineage n = [n] := by
  cases hparent : d.nodes.parent? n with
  | none => simp [elementLineage, Forest.WellFormed.lineage_of_parent_none hparent]
  | some p =>
    have helement : ¬d.isElement p = true := fun helement =>
      absurd (parentElement?_eq_some_iff.2 ⟨hparent, helement⟩) (by simp [hp])
    obtain ⟨above, hlineage⟩ := Forest.WellFormed.exists_lineage_eq_cons d.nodes p
    rw [elementLineage, h.wellFormed.lineage_of_parent hparent, List.drop_one, List.tail_cons, hlineage,
      List.takeWhile_cons_of_neg helement]

/-- The chain of the document element is empty. -/
theorem chainBelowTop_of_top (hn : d.documentElement? = some n) : d.chainBelowTop n = [] := by
  obtain ⟨above, hlineage⟩ := exists_elementLineage_eq_cons d n
  simp [chainBelowTop, hlineage, hn]

/-- Below the document element, the chain of a node goes on with that of its parent element. -/
theorem chainBelowTop_of_parent (h : d.Sound) (hn : d.documentElement? ≠ some n)
    (hp : d.parentElement? n = some p) : d.chainBelowTop n = n :: d.chainBelowTop p := by
  rw [chainBelowTop, h.elementLineage_of_parent hp, List.takeWhile_cons_of_pos (by simpa using hn)]
  rfl

/-- Without a parent element the chain is the node alone. -/
theorem chainBelowTop_of_none (h : d.Sound) (hn : d.documentElement? ≠ some n)
    (hp : d.parentElement? n = none) : d.chainBelowTop n = [n] := by
  rw [chainBelowTop, h.elementLineage_of_none hp, List.takeWhile_cons_of_pos (by simpa using hn)]
  rfl

end Sound

end ElementLocator.Document
