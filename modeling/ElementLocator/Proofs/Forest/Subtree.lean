import ElementLocator.Proofs.Forest.Edits
import ElementLocator.Proofs.Forest.Order

/-!
# Subtrees

A detached node keeps everything below it: the links, the lineages up to it and the pre-orders. Nodes that stand
apart, none of them below another, have their subtrees one behind the other in every pre-order around them.
-/

namespace ElementLocator.Forest

variable {α : Type} {f : Forest α} {a m n p q x y : NodeId} {l : List NodeId}

/-- No node of the list stands below an earlier one. -/
def Apart (f : Forest α) (l : List NodeId) : Prop := l.Pairwise fun x y => x ∉ f.lineage y

namespace WellFormed

/-! ### Below a detached node -/

/-- Nothing below a node loses a child when the node is detached. -/
theorem children_detach_of_mem (h : f.WellFormed) (hq : n ∈ f.lineage q) : (f.detach n).children q = f.children q := by
  rw [Forest.children_detach, if_neg]
  exact fun hp => h.not_mem_lineage_parent hp hq

/-- The children in a subtree settle its pre-order. -/
theorem preorder_congr {g : Forest α} (h : f.WellFormed) (hsize : g.size = f.size) (hq : n ∈ f.lineage q)
    (hchildren : ∀ m, n ∈ f.lineage m → g.children m = f.children m) : g.preorder q = f.preorder q := by
  have hwithin : ∀ bound q, n ∈ f.lineage q → g.preorderWithin bound q = f.preorderWithin bound q := by
    intro bound
    induction bound with
    | zero => exact fun q _ => rfl
    | succ bound ih =>
      intro q hq
      rw [preorderWithin, preorderWithin, hchildren q hq]
      congr 1
      refine List.flatMap_congr fun c hc => ih c ?_
      exact h.mem_lineage_trans hq (h.parent_mem_lineage ((h.parent_iff c q).2 hc))
  rw [preorder, preorder, hsize, hwithin _ q hq]

/-- The pre-orders below a detached node are what they were. -/
theorem preorder_detach (h : f.WellFormed) (hq : n ∈ f.lineage q) : (f.detach n).preorder q = f.preorder q :=
  h.preorder_congr (f.size_detach n) hq fun _ hm => h.children_detach_of_mem hm

/-- A node stays below what is detached above it. -/
theorem mem_lineage_detach (h : f.WellFormed) (hq : n ∈ f.lineage q) : n ∈ (f.detach n).lineage q := by
  rw [← (h.detach n).mem_preorder_iff, h.preorder_detach (self_mem_lineage f n)]
  exact h.mem_preorder_iff.2 hq

/-- Of two nodes one of which is above the other, only the same node is also below it. -/
theorem eq_of_mem_lineage (h : f.WellFormed) (hm : m ∈ f.lineage n) (hn : n ∈ f.lineage m) : m = n := by
  obtain ⟨depth, hdepth⟩ := h.acyclic
  rcases h.depth_le_of_mem_lineage hdepth hm with heq | hlt
  · exact heq
  · rcases h.depth_le_of_mem_lineage hdepth hn with heq | hlt'
    · exact heq.symm
    · omega

/-- What stood above a detached node, the node itself aside, stands above nothing below it any more. -/
theorem not_mem_lineage_detach (h : f.WellFormed) (hm : m ∈ f.lineage n) (hmn : m ≠ n) (hq : n ∈ f.lineage q) :
    m ∉ (f.detach n).lineage q := by
  intro hmq
  rcases (h.detach n).mem_lineage_total hmq (h.mem_lineage_detach hq) with habove | hbelow
  · rw [lineage_of_parent_none (by simp), List.mem_singleton] at habove
    exact hmn habove
  · exact hmn (h.eq_of_mem_lineage hm (h.mem_lineage_of_detach hbelow))

/-! ### Nodes apart -/

/-- If the members of a list have this property, so have the nodes of their subtrees. -/
private theorem flatMap_sublist_of_forall {cs : List NodeId}
    (hcs : ∀ c ∈ cs, ∀ l, l.Sublist (f.preorder c) → Apart f l → (l.flatMap f.preorder).Sublist (f.preorder c))
    (hl : l.Sublist (cs.flatMap f.preorder)) (happart : Apart f l) :
    (l.flatMap f.preorder).Sublist (cs.flatMap f.preorder) := by
  induction cs generalizing l with
  | nil =>
    rw [List.flatMap_nil, List.sublist_nil] at hl
    rw [hl]
  | cons c cs ih =>
    rw [List.flatMap_cons] at hl ⊢
    obtain ⟨front, back, rfl, hfront, hback⟩ := List.sublist_append_iff.1 hl
    obtain ⟨hapartFront, hapartBack, -⟩ := List.pairwise_append.1 happart
    rw [List.flatMap_append]
    exact (hcs c List.mem_cons_self front hfront hapartFront).append
      (ih (fun b hb => hcs b (List.mem_cons_of_mem c hb)) hback hapartBack)

/-- Nodes apart that stand in the order of a subtree have their subtrees one behind the other in it. By induction on the
height, since the top itself leaves room for no other node. -/
theorem flatMap_preorder_sublist (h : f.WellFormed) (hl : l.Sublist (f.preorder a)) (happart : Apart f l) :
    (l.flatMap f.preorder).Sublist (f.preorder a) := by
  induction a using h.induction_from_bottom generalizing l with
  | step a ih =>
    have hall := hl
    rw [h.preorder_eq] at hl
    rcases List.sublist_cons_iff.1 hl with hbelow | ⟨rest, rfl, hrest⟩
    · rw [h.preorder_eq a]
      refine (flatMap_sublist_of_forall (fun c hc l => ih c hc) hbelow happart).trans ?_
      exact List.sublist_cons_self _ _
    · have hnil : rest = [] := List.eq_nil_iff_forall_not_mem.2 fun x hx =>
        (List.pairwise_cons.1 happart).1 x hx (h.mem_preorder_iff.1 (hall.subset (List.mem_cons_of_mem a hx)))
      rw [hnil, List.flatMap_singleton]

/-- The children of nodes apart are apart. What stands above a child, the child itself aside, stands above its
parent. -/
theorem apart_flatMap_children (h : f.WellFormed) (happart : Apart f l) : Apart f (l.flatMap f.children) := by
  refine List.pairwise_flatMap.2 ⟨fun p _ => ?_, happart.imp fun {p q} hpq x hx y hy hxy => hpq ?_⟩
  · refine (h.nodup p).imp_of_mem fun {x y} hx hy hne hxy => hne ?_
    exact h.eq_of_siblings hx hy hxy (self_mem_lineage f y)
  · have hp := (h.parent_iff x p).2 hx
    have hq := (h.parent_iff y q).2 hy
    rcases h.mem_lineage_iff.1 hxy with rfl | ⟨r, hr, hxr⟩
    · rw [← Option.some.inj (hp.symm.trans hq)]
      exact self_mem_lineage f p
    · rw [← Option.some.inj (hr.symm.trans hq)]
      exact h.mem_lineage_trans (h.parent_mem_lineage hp) hxr

end WellFormed

end ElementLocator.Forest
