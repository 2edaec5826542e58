import ElementLocator.Proofs.Forest.Lineage
import Mathlib.Data.List.Flatten

/-!
# Document order

The pre-order of a node lists its subtree, each node before its children and the subtrees of siblings one behind
the other. That `x` comes before `y` is written `[x, y].Sublist l`: it then passes from a subtree to every
subtree around it, and from two siblings to what stands below them.
-/

namespace ElementLocator

namespace Forest.WellFormed

variable {α : Type} {f : Forest α} {a b n p r s t x y : NodeId}

/-- A walk down by as many levels as there are nodes is not cut off: what it yields at a node is made from what it
yields at the children. -/
theorem walk_eq {β : Type} (h : f.WellFormed) (walk : Nat → NodeId → List β) (step : NodeId → List β → List β)
    (hsucc : ∀ bound n, walk (bound + 1) n = step n ((f.children n).flatMap (walk bound)))
    (hmissing : ∀ n, f.size ≤ n → walk 0 n = step n []) (n : NodeId) :
    walk f.size n = step n ((f.children n).flatMap (walk f.size)) := by
  obtain ⟨rank, hrank, -, hlt⟩ := h.exists_rank
  have hstable : ∀ bound n, f.size ≤ bound + rank n → walk (bound + 1) n = walk bound n := by
    intro bound
    induction bound with
    | zero =>
      intro n hn
      have hsize : f.size ≤ n := Nat.not_lt.1 fun hn' => by
        have := hlt n hn'
        omega
      rw [hsucc, children_of_size_le hsize, List.flatMap_nil, hmissing n hsize]
    | succ bound ih =>
      intro n hn
      rw [hsucc, hsucc]
      congr 1
      refine List.flatMap_congr fun c hc => ih c ?_
      have := hrank c n ((h.parent_iff c n).2 hc)
      omega
  rw [← hsucc, hstable f.size n (by omega)]

/-- The pre-order of a node is the node with the pre-orders of its children behind it. -/
theorem preorder_eq (h : f.WellFormed) (n : NodeId) :
    f.preorder n = n :: (f.children n).flatMap f.preorder :=
  h.walk_eq f.preorderWithin (fun n below => n :: below) (fun _ _ => rfl) (fun _ _ => rfl) n

/-- A node stands in its own pre-order. -/
theorem self_mem_preorder (h : f.WellFormed) (n : NodeId) : n ∈ f.preorder n := by
  rw [h.preorder_eq]
  exact List.mem_cons_self

/-- The pre-order of a child stands in one piece in the pre-order of its parent. -/
theorem preorder_isInfix_of_mem_children (h : f.WellFormed) (hc : n ∈ f.children p) :
    f.preorder n <:+: f.preorder p := by
  rw [h.preorder_eq p]
  exact List.infix_cons (List.infix_flatMap_of_mem hc f.preorder)

/-- The pre-order of an inner node stands in one piece in the pre-order around it. -/
theorem preorder_isInfix_of_mem (h : f.WellFormed) (hn : n ∈ f.preorder a) : f.preorder n <:+: f.preorder a := by
  induction a using h.induction_from_bottom with
  | step a ih =>
    rw [h.preorder_eq a, List.mem_cons, List.mem_flatMap] at hn
    rcases hn with rfl | ⟨c, hc, hnc⟩
    · exact List.infix_rfl
    · exact (ih c hc hnc).trans (h.preorder_isInfix_of_mem_children hc)

/-- The pre-order of a child is part of the pre-order of its parent. -/
theorem preorder_sublist_of_mem_children (h : f.WellFormed) (hc : n ∈ f.children p) :
    (f.preorder n).Sublist (f.preorder p) :=
  (h.preorder_isInfix_of_mem_children hc).sublist

/-- The subtree of a node consists of the nodes that have it in their lineage. By induction on the depth of the node: a
subtree that holds its parent holds the children of the parent. -/
theorem mem_preorder_iff (h : f.WellFormed) : n ∈ f.preorder a ↔ a ∈ f.lineage n := by
  constructor
  · intro hn
    induction a using h.induction_from_bottom with
    | step a ih =>
      rw [h.preorder_eq, List.mem_cons, List.mem_flatMap] at hn
      rcases hn with rfl | ⟨c, hc, hnc⟩
      · exact self_mem_lineage f n
      · exact h.mem_lineage_trans (h.parent_mem_lineage ((h.parent_iff c a).2 hc)) (ih c hc hnc)
  · intro ha
    induction n using h.induction_from_top with
    | step n ih =>
      rcases h.mem_lineage_iff.1 ha with rfl | ⟨p, hp, hap⟩
      · exact h.self_mem_preorder a
      · have hchild := h.preorder_sublist_of_mem_children ((h.parent_iff n p).1 hp)
        exact (h.preorder_isInfix_of_mem (ih p hp hap)).subset (hchild.subset (h.self_mem_preorder n))

/-- The pre-order of a node stands in one piece in the pre-order of each node above it. -/
theorem preorder_isInfix (h : f.WellFormed) (ha : a ∈ f.lineage n) : f.preorder n <:+: f.preorder a :=
  h.preorder_isInfix_of_mem (h.mem_preorder_iff.2 ha)

/-- The pre-order of a node is part of the pre-order of each node above it. -/
theorem preorder_sublist (h : f.WellFormed) (ha : a ∈ f.lineage n) :
    (f.preorder n).Sublist (f.preorder a) :=
  (h.preorder_isInfix ha).sublist

/-- Siblings with a node below both of them are the same. -/
theorem eq_of_siblings (h : f.WellFormed) (hs : s ∈ f.children p) (ht : t ∈ f.children p)
    (hxs : s ∈ f.lineage x) (hxt : t ∈ f.lineage x) : s = t := by
  have hps := (h.parent_iff s p).2 hs
  have hpt := (h.parent_iff t p).2 ht
  rcases h.mem_lineage_total hxs hxt with hst | hts
  · rcases h.mem_lineage_iff.1 hst with rfl | ⟨q, hq, hsq⟩
    · rfl
    · cases hq.symm.trans hpt
      exact absurd hsq (h.not_mem_lineage_parent hps)
  · rcases h.mem_lineage_iff.1 hts with rfl | ⟨q, hq, htq⟩
    · rfl
    · cases hq.symm.trans hps
      exact absurd htq (h.not_mem_lineage_parent hpt)

/-- A pre-order names no node twice. -/
theorem preorder_nodup (h : f.WellFormed) (n : NodeId) : (f.preorder n).Nodup := by
  induction n using h.induction_from_bottom with
  | step n ih =>
    rw [h.preorder_eq, List.nodup_cons, List.nodup_flatMap]
    refine ⟨fun hn => ?_, ih, ?_⟩
    · obtain ⟨c, hc, hnc⟩ := List.mem_flatMap.1 hn
      have hp := (h.parent_iff c n).2 hc
      exact h.not_mem_lineage_parent hp (h.mem_preorder_iff.1 hnc)
    · refine (h.nodup n).imp_of_mem fun {s t} hs ht hne x hxs hxt => hne ?_
      exact h.eq_of_siblings hs ht (h.mem_preorder_iff.1 hxs) (h.mem_preorder_iff.1 hxt)

/-- What stands below an earlier sibling comes before what stands below a later one. -/
theorem pair_sublist_of_siblings (h : f.WellFormed) (hst : [s, t].Sublist (f.children p))
    (hx : s ∈ f.lineage x) (hy : t ∈ f.lineage y) : [x, y].Sublist (f.preorder p) := by
  have hpair : [x, y].Sublist (f.preorder s ++ f.preorder t) :=
    (List.singleton_sublist.2 (h.mem_preorder_iff.2 hx)).append
      (List.singleton_sublist.2 (h.mem_preorder_iff.2 hy))
  have hboth : (f.preorder s ++ f.preorder t).Sublist ((f.children p).flatMap f.preorder) := by
    simpa using hst.flatMap f.preorder
  rw [h.preorder_eq p]
  exact (hpair.trans hboth).trans (List.sublist_cons_self _ _)

end Forest.WellFormed

/-! ### The first of several -/

section First

variable {α : Type} {found l : List α} {a b t : α}

/-- Two members of a list without repetition stand in one order only. -/
theorem not_pair_sublist_swap (hnodup : l.Nodup) (h : [a, b].Sublist l) : ¬[b, a].Sublist l := by
  induction l with
  | nil => simp at h
  | cons c rest ih =>
    obtain ⟨hc, hrest⟩ := List.nodup_cons.1 hnodup
    intro hswap
    rcases List.sublist_cons_iff.1 h with h | ⟨later, heq, hlater⟩
    · rcases List.sublist_cons_iff.1 hswap with hswap | ⟨later, heq, -⟩
      · exact ih hrest h hswap
      · exact hc ((List.cons.inj heq).1 ▸ h.subset (by simp))
    · obtain ⟨rfl, rfl⟩ := List.cons.inj heq
      rcases List.sublist_cons_iff.1 hswap with hswap | ⟨later, heq, -⟩
      · exact hc (hswap.subset (by simp))
      · exact hc ((List.cons.inj heq).1 ▸ hlater.subset (by simp))

/-- The first of several members of a list is each one of them or stands in front of it. -/
theorem exists_head?_eq_some (hfound : found.Sublist l) (ht : t ∈ found) :
    ∃ n, found.head? = some n ∧ n ∈ found ∧ (n = t ∨ [n, t].Sublist l) := by
  obtain ⟨n, rest, rfl⟩ := List.exists_cons_of_ne_nil (List.ne_nil_of_mem ht)
  refine ⟨n, rfl, List.mem_cons_self, ?_⟩
  rcases List.mem_cons.1 ht with rfl | ht
  · exact .inl rfl
  · exact .inr (((List.singleton_sublist.2 ht).cons_cons n).trans hfound)

/-- The member that all others stand behind is the first one. -/
theorem head?_eq_some_of_sublist (hnodup : l.Nodup) (hfound : found.Sublist l) (ht : t ∈ found)
    (hfirst : ∀ n ∈ found, n = t ∨ [t, n].Sublist l) : found.head? = some t := by
  obtain ⟨n, hhead, hn, heq | hbefore⟩ := exists_head?_eq_some hfound ht
  · rw [hhead, heq]
  · rcases hfirst n hn with heq | hafter
    · rw [hhead, heq]
    · exact absurd hafter (not_pair_sublist_swap hnodup hbefore)

end First

end ElementLocator
