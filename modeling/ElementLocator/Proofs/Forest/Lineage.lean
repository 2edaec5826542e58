import ElementLocator.Forest
import Mathlib.Data.Finset.Card
import Mathlib.Data.List.Nodup

/-!
# Climbing and descending in a well-formed forest

The walks of a forest carry a bound, which never takes effect when the forest is well-formed: a lineage is the
node with the lineage of its parent behind it, and a pre-order is the node with the pre-orders of its children
behind it. Both facts rest on a depth function whose values on existing nodes stay below the number of slots.

The subtree of a node holds exactly the nodes that have it in their lineage, each of them once.
-/

namespace ElementLocator.Forest

variable {α : Type} {f : Forest α} {a b n p : NodeId}

/-! ### Numbers beyond the slots -/

/-- There is no slot beyond the size. -/
theorem slots_of_size_le (h : f.size ≤ n) : f.slots[n]? = none := Array.getElem?_eq_none h

/-- There is no value beyond the size. -/
theorem value?_of_size_le (h : f.size ≤ n) : f.value? n = none := by
  rw [value?, slots_of_size_le h]
  rfl

/-- There is no parent beyond the size. -/
theorem parent?_of_size_le (h : f.size ≤ n) : f.parent? n = none := by
  rw [parent?, slots_of_size_le h]
  rfl

/-- There are no children beyond the size. -/
theorem children_of_size_le (h : f.size ≤ n) : f.children n = [] := by
  rw [children, slots_of_size_le h]
  rfl

/-- Only nodes that exist have a value. -/
theorem lt_size_of_value {v : α} (h : f.value? n = some v) : n < f.size := by
  by_contra hn
  rw [value?_of_size_le (Nat.le_of_not_lt hn)] at h
  cases h

/-- Only nodes that exist have a parent. -/
theorem lt_size_of_parent (h : f.parent? n = some p) : n < f.size := by
  by_contra hn
  rw [parent?_of_size_le (Nat.le_of_not_lt hn)] at h
  cases h

/-- Only nodes that exist have children. -/
theorem lt_size_of_mem_children (h : n ∈ f.children p) : p < f.size := by
  by_contra hp
  rw [children_of_size_le (Nat.le_of_not_lt hp)] at h
  cases h

namespace WellFormed

/-- A depth whose values on existing nodes stay below the number of slots. It is the number of existing nodes that are
less deep. -/
theorem exists_rank (h : f.WellFormed) : ∃ rank : NodeId → Nat,
    (∀ n p, f.parent? n = some p → rank p < rank n) ∧ (∀ n, rank n ≤ f.size) ∧
      ∀ n < f.size, rank n < f.size := by
  obtain ⟨depth, hdepth⟩ := h.acyclic
  let above (n : NodeId) : Finset NodeId := (Finset.range f.size).filter (depth · < depth n)
  refine ⟨fun n => (above n).card, fun n p hp => ?_, fun n => ?_, fun n hn => ?_⟩
  · have hlt := hdepth n p hp
    apply Finset.card_lt_card
    refine (Finset.ssubset_iff_of_subset fun m hm => ?_).2 ⟨p, ?_, ?_⟩
    · simp only [above, Finset.mem_filter] at hm ⊢
      exact ⟨hm.1, hm.2.trans hlt⟩
    · simp only [above, Finset.mem_filter, Finset.mem_range]
      exact ⟨lt_size_of_mem_children ((h.parent_iff n p).1 hp), hlt⟩
    · simp [above]
  · simpa using Finset.card_le_card (Finset.filter_subset (depth · < depth n) (Finset.range f.size))
  · have hproper : above n ⊂ Finset.range f.size :=
      (Finset.ssubset_iff_of_subset (Finset.filter_subset _ _)).2 ⟨n, Finset.mem_range.2 hn, by simp⟩
    simpa using Finset.card_lt_card hproper

/-! ### Lineages -/

/-- A bound above the rank of a node does not cut its climb. -/
private theorem climb_succ {rank : NodeId → Nat} (hrank : ∀ n p, f.parent? n = some p → rank p < rank n)
    (bound : Nat) (n : NodeId) (hn : rank n < bound) : f.climb (bound + 1) n = f.climb bound n := by
  induction bound generalizing n with
  | zero => omega
  | succ bound ih =>
    rw [climb, climb]
    cases hp : f.parent? n with
    | none => rfl
    | some p =>
      have hlt := hrank n p hp
      simp only [ih p (by omega)]

/-- A lineage begins with its node. -/
theorem exists_lineage_eq_cons (f : Forest α) (n : NodeId) : ∃ above, f.lineage n = n :: above := ⟨_, rfl⟩

/-- A node without a parent is its whole lineage. -/
theorem lineage_of_parent_none (hp : f.parent? n = none) : f.lineage n = [n] := by
  simp [lineage, climb, hp]

/-- The lineage of a node is the node with the lineage of its parent behind it. -/
theorem lineage_of_parent (h : f.WellFormed) (hp : f.parent? n = some p) :
    f.lineage n = n :: f.lineage p := by
  obtain ⟨rank, hrank, hle, -⟩ := h.exists_rank
  have hlt := hrank n p hp
  have hbound := hle n
  simp only [lineage]
  rw [climb, hp, climb_succ hrank f.size p (by omega)]

/-- Induction from the top of a forest to the bottom. -/
theorem induction_from_top (h : f.WellFormed) {P : NodeId → Prop}
    (step : ∀ n, (∀ p, f.parent? n = some p → P p) → P n) (n : NodeId) : P n := by
  obtain ⟨depth, hdepth⟩ := h.acyclic
  induction hd : depth n using Nat.strong_induction_on generalizing n with
  | _ k ih => exact step n fun p hp => ih (depth p) (hd ▸ hdepth n p hp) p rfl

/-- Induction from the bottom of a forest to the top. -/
theorem induction_from_bottom (h : f.WellFormed) {P : NodeId → Prop}
    (step : ∀ n, (∀ c ∈ f.children n, P c) → P n) (n : NodeId) : P n := by
  obtain ⟨rank, hrank, -, hlt⟩ := h.exists_rank
  induction hd : f.size - rank n using Nat.strong_induction_on generalizing n with
  | _ k ih =>
    refine step n fun c hc => ih (f.size - rank c) ?_ c rfl
    have hp := (h.parent_iff c n).2 hc
    have h1 := hrank c n hp
    have h2 := hlt c (lt_size_of_parent hp)
    omega

/-- A node stands in its own lineage. -/
theorem self_mem_lineage (f : Forest α) (n : NodeId) : n ∈ f.lineage n := by
  obtain ⟨above, hlineage⟩ := exists_lineage_eq_cons f n
  rw [hlineage]
  exact List.mem_cons_self

/-- The rest of a lineage is the lineage of the parent. -/
theorem mem_lineage_iff (h : f.WellFormed) :
    a ∈ f.lineage n ↔ a = n ∨ ∃ p, f.parent? n = some p ∧ a ∈ f.lineage p := by
  cases hp : f.parent? n with
  | none => simp [lineage_of_parent_none hp]
  | some p => simp [h.lineage_of_parent hp]

/-- Whatever stands above an ancestor stands above the node. -/
theorem mem_lineage_trans (h : f.WellFormed) (ha : a ∈ f.lineage b) (hb : b ∈ f.lineage n) :
    a ∈ f.lineage n := by
  induction n using h.induction_from_top with
  | step n ih =>
    rcases h.mem_lineage_iff.1 hb with rfl | ⟨p, hp, hbp⟩
    · exact ha
    · exact h.mem_lineage_iff.2 (.inr ⟨p, hp, ih p hp hbp⟩)

/-- A parent stands in the lineage of its child. -/
theorem parent_mem_lineage (h : f.WellFormed) (hp : f.parent? n = some p) : p ∈ f.lineage n :=
  h.mem_lineage_iff.2 (.inr ⟨p, hp, self_mem_lineage f p⟩)

/-- Depth never grows towards the top, and stays the same only at the node itself. -/
theorem depth_le_of_mem_lineage (h : f.WellFormed) {depth : NodeId → Nat}
    (hdepth : ∀ n p, f.parent? n = some p → depth p < depth n) (ha : a ∈ f.lineage n) :
    a = n ∨ depth a < depth n := by
  induction n using h.induction_from_top with
  | step n ih =>
    rcases h.mem_lineage_iff.1 ha with rfl | ⟨p, hp, hap⟩
    · exact .inl rfl
    · have hlt := hdepth n p hp
      rcases ih p hp hap with rfl | hlt'
      · exact .inr hlt
      · exact .inr (hlt'.trans hlt)

/-- No node stands above its own parent. -/
theorem not_mem_lineage_parent (h : f.WellFormed) (hp : f.parent? n = some p) : n ∉ f.lineage p := by
  obtain ⟨depth, hdepth⟩ := h.acyclic
  intro hn
  have hlt := hdepth n p hp
  rcases h.depth_le_of_mem_lineage hdepth hn with rfl | hlt' <;> omega

/-- Of two ancestors of a node one stands above the other. -/
theorem mem_lineage_total (h : f.WellFormed) (ha : a ∈ f.lineage n) (hb : b ∈ f.lineage n) :
    a ∈ f.lineage b ∨ b ∈ f.lineage a := by
  induction n using h.induction_from_top with
  | step n ih =>
    rcases h.mem_lineage_iff.1 ha with rfl | ⟨p, hp, hap⟩
    · exact .inr hb
    rcases h.mem_lineage_iff.1 hb with rfl | ⟨q, hq, hbq⟩
    · exact .inl ha
    · rw [hp] at hq
      cases hq
      exact ih p hp hap hbq

/-- A lineage names no node twice. -/
theorem lineage_nodup (h : f.WellFormed) (n : NodeId) : (f.lineage n).Nodup := by
  induction n using h.induction_from_top with
  | step n ih =>
    cases hp : f.parent? n with
    | none => simp [lineage_of_parent_none hp]
    | some p =>
      rw [h.lineage_of_parent hp]
      exact List.nodup_cons.2 ⟨h.not_mem_lineage_parent hp, ih p hp⟩

/-- The lineage of a child is longer by one than that of its parent. -/
theorem length_lineage_of_parent (h : f.WellFormed) (hp : f.parent? n = some p) :
    (f.lineage n).length = (f.lineage p).length + 1 := by
  rw [h.lineage_of_parent hp, List.length_cons]

/-- Above a node, no other node has as many ancestors. -/
theorem eq_of_length_lineage (h : f.WellFormed) (ha : a ∈ f.lineage n)
    (hlength : (f.lineage a).length = (f.lineage n).length) : a = n := by
  have hdepth : ∀ n p, f.parent? n = some p → (f.lineage p).length < (f.lineage n).length := fun n p hp =>
    Nat.lt_of_lt_of_eq (Nat.lt_succ_self _) (h.length_lineage_of_parent hp).symm
  rcases h.depth_le_of_mem_lineage hdepth ha with heq | hlt
  · exact heq
  · omega

/-- An ancestor with one ancestor fewer is the parent. -/
theorem parent_of_length_lineage (h : f.WellFormed) (ha : a ∈ f.lineage n)
    (hlength : (f.lineage n).length = (f.lineage a).length + 1) : f.parent? n = some a := by
  rcases h.mem_lineage_iff.1 ha with rfl | ⟨p, hp, hap⟩
  · omega
  · have hlengthParent := h.length_lineage_of_parent hp
    rw [h.eq_of_length_lineage hap (by omega)]
    exact hp

/-- A node contains exactly those in whose lineage it is. -/
@[simp] theorem contains_iff : f.contains a n = true ↔ a ∈ f.lineage n := by
  simp [contains]

end WellFormed

end ElementLocator.Forest
