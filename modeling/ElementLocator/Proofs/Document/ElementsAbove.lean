import ElementLocator.Proofs.Document.History
import ElementLocator.Proofs.Document.Navigation
import Mathlib.Data.Set.Card

/-!
# Elements above a node

The chain of a node is read off the tree: it holds the node and the attached elements above it, the document element
aside. A walk from parent element to parent element finds exactly these, because it ends at the document node or at the
document element, and no attached element that counts is above either of them. Where the document node has no parent,
every element above an attached node is attached, so the chain holds all of them.
-/

namespace ElementLocator.Document

variable {d : Document} {a m n p : NodeId}

/-- The attached elements above a node, other than the document element. -/
def elementsAbove (d : Document) (n : NodeId) : Set NodeId :=
  {a | d.isElement a = true ∧ d.isAttached a = true ∧ d.documentElement? ≠ some a ∧ d.Above a n}

/-- The second node is the first one or an attached element above it, other than the document element. -/
def OnChain (d : Document) (n m : NodeId) : Prop := m = n ∨ m ∈ d.elementsAbove n

/-- What is above a node is its parent or above its parent. -/
theorem above_iff_of_parent (hp : d.parent? n = some p) : d.Above a n ↔ a = p ∨ d.Above a p :=
  Forest.above_iff_of_parent hp

namespace Sound

/-- No attached element is above a child of the document node. -/
theorem not_above_of_parent_root (h : d.Sound) (hp : d.parent? n = some root) (ha : d.isElement a = true)
    (hattached : d.isAttached a = true) : ¬d.Above a n := by
  intro habove
  rcases (above_iff_of_parent hp).1 habove with rfl | habove
  · simp [h.isElement_root] at ha
  · rcases h.wellFormed.mem_lineage_iff_above.1 (isAttached_iff.1 hattached) with rfl | hroot
    · simp [h.isElement_root] at ha
    · exact h.wellFormed.not_above_self _ (hroot.trans habove)

/-- At the top of a chain nothing is above that counts. -/
theorem elementsAbove_of_top (h : d.Sound) (hnest : d.ElementsNest) (hn : d.isElement n = true)
    (hattached : root ∈ d.nodes.lineage n)
    (htop : d.parentElement? n = none ∨ ∃ e, d.documentElement? = some e ∧ d.parentElement? n = some e) :
    d.elementsAbove n = ∅ := by
  rw [Set.eq_empty_iff_forall_notMem]
  rintro a ⟨ha, haattached, hne, habove⟩
  rcases htop with hnone | ⟨e, he, hp⟩
  · exact h.not_above_of_parent_root (h.parent_eq_root hnest hn hattached hnone) ha haattached habove
  · rcases (above_iff_of_parent (parentElement?_eq_some_iff.1 hp).1).1 habove with rfl | habove
    · exact hne he
    · have hroot := (h.mem_elementChildren_iff.1 (List.mem_of_head? he)).1
      exact h.not_above_of_parent_root hroot ha haattached habove

/-- Above a node whose parent is an element that counts are that element and what is above it. -/
theorem elementsAbove_of_parent (hp : d.parentElement? n = some p) (hattached : root ∈ d.nodes.lineage p)
    (htop : d.documentElement? ≠ some p) : d.elementsAbove n = insert p (d.elementsAbove p) := by
  obtain ⟨hparent, helement⟩ := parentElement?_eq_some_iff.1 hp
  ext a
  rw [Set.mem_insert_iff, elementsAbove, elementsAbove, Set.mem_ofPred_eq, Set.mem_ofPred_eq,
    above_iff_of_parent hparent]
  constructor
  · rintro ⟨ha, haattached, hne, rfl | habove⟩
    · exact .inl rfl
    · exact .inr ⟨ha, haattached, hne, habove⟩
  · rintro (rfl | ⟨ha, haattached, hne, habove⟩)
    · exact ⟨helement, isAttached_iff.2 hattached, htop, .inl rfl⟩
    · exact ⟨ha, haattached, hne, .inr habove⟩

/-- Below an element that counts there is one more above than above that element. -/
theorem ncard_elementsAbove_of_parent (h : d.Sound) (hp : d.parentElement? n = some p)
    (hattached : root ∈ d.nodes.lineage p) (htop : d.documentElement? ≠ some p) :
    (d.elementsAbove n).ncard = (d.elementsAbove p).ncard + 1 := by
  have hnot : p ∉ d.elementsAbove p := fun hmem => h.wellFormed.not_above_self p hmem.2.2.2
  have hfinite : (d.elementsAbove p).Finite :=
    (Set.finite_lt_nat d.size).subset fun a ha => lt_size_of_isElement ha.1
  rw [elementsAbove_of_parent hp hattached htop, Set.ncard_insert_of_notMem hnot hfinite]

/-- Where nothing is above the document node, all elements above an attached node are attached. -/
theorem elementsAbove_eq (h : d.Sound) (hroot : d.parent? root = none) (hn : root ∈ d.nodes.lineage n) :
    d.elementsAbove n = {a | d.isElement a = true ∧ d.documentElement? ≠ some a ∧ d.Above a n} := by
  ext a
  refine ⟨fun ⟨ha, _, hne, habove⟩ => ⟨ha, hne, habove⟩, fun ⟨ha, hne, habove⟩ => ⟨ha, ?_, hne, habove⟩⟩
  rw [isAttached_iff]
  rcases h.wellFormed.mem_lineage_total (h.wellFormed.mem_lineage_iff_above.2 (.inr habove)) hn with hlow | hhigh
  · rw [Forest.WellFormed.lineage_of_parent_none hroot, List.mem_singleton] at hlow
    simp [hlow, h.isElement_root] at ha
  · exact hhigh

/-- Where nothing is above the document node, the chain of an attached node holds every element above it, other than
the document element. -/
theorem onChain_iff_above (h : d.Sound) (hroot : d.parent? root = none) (hn : d.isAttached n = true) :
    d.OnChain n m ↔ m = n ∨ d.isElement m = true ∧ d.documentElement? ≠ some m ∧ d.Above m n := by
  rw [OnChain, h.elementsAbove_eq hroot (isAttached_iff.1 hn)]
  rfl

/-- The walk up from an attached element collects its chain. By induction from the top: where the walk ends, nothing
that counts is above, and below an element that counts the chain grows by the node itself. -/
theorem mem_chainBelowTop_iff (h : d.Sound) (hnest : d.ElementsNest) (hn : d.isElement n = true)
    (hattached : root ∈ d.nodes.lineage n) (htop : d.documentElement? ≠ some n) :
    m ∈ d.chainBelowTop n ↔ d.OnChain n m := by
  induction n using h.wellFormed.induction_from_top with
  | step n ih =>
    cases hp : d.parentElement? n with
    | none =>
      rw [h.chainBelowTop_of_none htop hp, OnChain, h.elementsAbove_of_top hnest hn hattached (.inl hp)]
      simp
    | some p =>
      obtain ⟨hparent, helement⟩ := parentElement?_eq_some_iff.1 hp
      rw [h.chainBelowTop_of_parent htop hp, List.mem_cons, OnChain]
      refine or_congr_right ?_
      by_cases hlast : d.documentElement? = some p
      · rw [chainBelowTop_of_top hlast, h.elementsAbove_of_top hnest hn hattached (.inr ⟨p, hlast, hp⟩)]
        simp
      · have hpattached := h.root_mem_lineage_parent hn hattached hparent
        rw [ih p hparent helement hpattached hlast, elementsAbove_of_parent hp hpattached hlast, OnChain,
          Set.mem_insert_iff]

end Sound

end ElementLocator.Document
