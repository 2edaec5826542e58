import ElementLocator.Proofs.Forest.Subtree
import Mathlib.Logic.Relation

/-!
# Moving a subtree

The parent links decide which nodes stand above a node, and the children of a node are the siblings in front of any
one of them, that one, and the siblings behind it. A subtree that is taken from its place and attached as the last
child of another node leaves all other children where they were.
-/

namespace ElementLocator.Forest

variable {α : Type} {f : Forest α} {a c m n p q : NodeId}

/-- The node is reached from the other one by climbing one parent link or more. -/
def Above (f : Forest α) (a n : NodeId) : Prop := Relation.TransGen (fun child p => f.parent? child = some p) n a

/-- What is above a node is its parent or above it. -/
theorem above_iff : f.Above a n ↔ ∃ p, f.parent? n = some p ∧ (a = p ∨ f.Above a p) := by
  rw [Above, Relation.TransGen.head'_iff]
  apply exists_congr
  intro p
  rw [Relation.reflTransGen_iff_eq_or_transGen, Above]

/-- Above a child stand its parent and what is above the parent. -/
theorem above_iff_of_parent (hp : f.parent? n = some p) : f.Above a n ↔ a = p ∨ f.Above a p := by
  rw [above_iff]
  simp only [hp, Option.some.injEq, exists_eq_left']

/-- A moved node has the new parent, and the others keep theirs. -/
theorem parent?_move (hc : c < f.size) (p m : NodeId) :
    ((f.detach c).attachLast p c).parent? m = if m = c then some p else f.parent? m := by
  rw [parent?_attachLast (by rwa [size_detach]), parent?_detach]
  split <;> rfl

namespace WellFormed

/-- A lineage holds its node and what stands above it. -/
theorem mem_lineage_iff_above (h : f.WellFormed) : a ∈ f.lineage n ↔ a = n ∨ f.Above a n := by
  constructor
  · intro ha
    induction n using h.induction_from_top with
    | step n ih =>
      rcases h.mem_lineage_iff.1 ha with heq | ⟨p, hp, hap⟩
      · exact .inl heq
      · rcases ih p hp hap with rfl | habove
        · exact .inr (.single hp)
        · exact .inr (.head hp habove)
  · intro ha
    rcases ha with rfl | habove
    · exact self_mem_lineage f a
    · induction habove using Relation.TransGen.head_induction_on with
      | single hp => exact h.parent_mem_lineage hp
      | head hp _ ih => exact h.mem_lineage_iff.2 (.inr ⟨_, hp, ih⟩)

/-- No climb comes back to where it began. -/
theorem not_above_self (h : f.WellFormed) (n : NodeId) : ¬f.Above n n := by
  intro habove
  obtain ⟨p, hp, hpn⟩ := above_iff.1 habove
  exact h.not_mem_lineage_parent hp (h.mem_lineage_iff_above.2 hpn)

/-- A child splits the children of its parent into the siblings in front and those behind. -/
theorem children_eq_siblings (h : f.WellFormed) (hp : f.parent? n = some p) :
    f.children p = (f.preceding n).reverse ++ n :: f.following n := by
  have hmem : n ∈ f.children p := (h.parent_iff n p).1 hp
  rw [preceding, following, hp]
  dsimp only
  rw [List.reverse_reverse]
  generalize f.children p = siblings at hmem
  induction siblings with
  | nil => cases hmem
  | cons m rest ih =>
    by_cases hm : m = n
    · simp [hm]
    · have hrest := ih ((List.mem_cons.1 hmem).resolve_left (Ne.symm hm))
      rw [List.takeWhile_cons_of_pos (by simpa using hm), List.dropWhile_cons_of_pos (by simpa using hm),
        List.cons_append, ← hrest]

/-- What stands in front of a child are its earlier siblings, the nearest one last. -/
theorem preceding_of_children (h : f.WellFormed) {before after : List NodeId}
    (hchildren : f.children p = before ++ n :: after) : f.parent? n = some p ∧ f.preceding n = before.reverse := by
  have hp : f.parent? n = some p := (h.parent_iff n p).2 (by simp [hchildren])
  have hnot : ∀ m ∈ before, (m != n) = true := by
    have hnodup := h.nodup p
    rw [hchildren, List.nodup_append] at hnodup
    intro m hm
    simpa using hnodup.2.2 m hm n List.mem_cons_self
  refine ⟨hp, ?_⟩
  rw [preceding, hp]
  dsimp only
  rw [hchildren, List.takeWhile_append_of_pos hnot, List.takeWhile_cons_of_neg (by simp), List.append_nil]

/-- A node is an earlier sibling of another one exactly if it stands in front of it among the children of a node. -/
theorem preceding_eq_append_iff (h : f.WellFormed) {nearer farther : List NodeId} :
    f.preceding n = nearer ++ m :: farther ↔
      ∃ p after, f.children p = farther.reverse ++ m :: (nearer.reverse ++ n :: after) := by
  constructor
  · intro hsplit
    cases hp : f.parent? n with
    | none => simp [preceding, hp] at hsplit
    | some p =>
      refine ⟨p, f.following n, ?_⟩
      rw [h.children_eq_siblings hp, hsplit]
      simp
  · rintro ⟨p, after, hchildren⟩
    rw [← List.cons_append, ← List.append_assoc] at hchildren
    rw [(h.preceding_of_children hchildren).2]
    simp

/-! ### A move -/

/-- The moved node leaves all children of its old parent in their order and goes behind those of the new one. -/
theorem children_move (h : f.WellFormed) (hp : p < f.size) (c q : NodeId) :
    ((f.detach c).attachLast p c).children q =
      (f.children q).filter (· != c) ++ if q = p then [c] else [] := by
  rw [children_attachLast (by rwa [size_detach]), h.children_detach, h.children_detach]
  split
  · next hq => rw [hq]
  · rw [List.append_nil]

/-- Nothing in a moved subtree gets other children. -/
theorem children_move_of_mem (h : f.WellFormed) (hp : p < f.size) (habove : c ∉ f.lineage p)
    (hq : c ∈ f.lineage q) : ((f.detach c).attachLast p c).children q = f.children q := by
  have hqp : q ≠ p := fun heq => habove (heq ▸ hq)
  rw [h.children_move hp, if_neg hqp, List.append_nil, ← h.children_detach, h.children_detach_of_mem hq]

/-- A moved subtree keeps its order. -/
theorem preorder_move (h : f.WellFormed) (hp : p < f.size) (habove : c ∉ f.lineage p) :
    ((f.detach c).attachLast p c).preorder c = f.preorder c := by
  refine h.preorder_congr (by simp) (self_mem_lineage f c) fun m hm => ?_
  exact h.children_move_of_mem hp habove hm

end WellFormed

end ElementLocator.Forest
