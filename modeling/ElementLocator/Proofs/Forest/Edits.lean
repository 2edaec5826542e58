import ElementLocator.Proofs.Forest.Lineage

/-!
# Edits keep a forest well-formed

What each edit does to the three views of a forest (value, parent, children), and from that: a new node, a detached
node and a node attached below another one leave the forest well-formed. Attaching needs a node without a parent
that does not stand above its new parent.
-/

namespace ElementLocator.Forest

variable {α : Type} {f : Forest α} {c m n p q : NodeId}

/-! ### Views of an edited forest -/

/-- A modification changes the slot of its node and no other. -/
theorem slots_modify (f : Forest α) (n : NodeId) (g : Slot α → Slot α) (m : NodeId) :
    (f.modify n g).slots[m]? = if n = m then f.slots[m]?.map g else f.slots[m]? := by
  simp [modify, Array.getElem?_modify]

/-- A change of records that leaves the values alone is not seen through them. -/
theorem value?_modify (f : Forest α) (n : NodeId) {g : Slot α → Slot α} (hg : ∀ s, (g s).value = s.value)
    (m : NodeId) : (f.modify n g).value? m = f.value? m := by
  simp only [value?, slots_modify]
  split
  · cases f.slots[m]? <;> simp [hg]
  · rfl

/-- A change of records that leaves the parents alone is not seen through them. -/
theorem parent?_modify (f : Forest α) (n : NodeId) {g : Slot α → Slot α} (hg : ∀ s, (g s).parent = s.parent)
    (m : NodeId) : (f.modify n g).parent? m = f.parent? m := by
  simp only [parent?, slots_modify]
  split
  · cases f.slots[m]? <;> simp [hg]
  · rfl

/-- A change of records that leaves the children alone is not seen through them. -/
theorem children_modify (f : Forest α) (n : NodeId) {g : Slot α → Slot α}
    (hg : ∀ s, (g s).children = s.children) (m : NodeId) : (f.modify n g).children m = f.children m := by
  simp only [children, slots_modify]
  split
  · cases f.slots[m]? <;> simp [hg]
  · rfl

/-- A new parent is seen at its node alone. -/
theorem parent?_modify_parent (f : Forest α) (n : NodeId) (new : Option NodeId) (m : NodeId) :
    (f.modify n fun slot => { slot with parent := new }).parent? m =
      if m = n then (if n < f.size then new else none) else f.parent? m := by
  simp only [parent?, slots_modify]
  by_cases hm : m = n
  · subst hm
    by_cases hlt : m < f.size
    · have hslot : f.slots[m]? = some f.slots[m] := Array.getElem?_eq_getElem hlt
      simp [hslot, hlt]
    · simp [slots_of_size_le (Nat.le_of_not_lt hlt), hlt]
  · simp [hm, Ne.symm hm]

/-- New children are seen at their parent alone. -/
theorem children_modify_children (f : Forest α) (n : NodeId) (g : List NodeId → List NodeId) (m : NodeId) :
    (f.modify n fun slot => { slot with children := g slot.children }).children m =
      if m = n then (if n < f.size then g (f.children n) else []) else f.children m := by
  simp only [children, slots_modify]
  by_cases hm : m = n
  · subst hm
    by_cases hlt : m < f.size
    · have hslot : f.slots[m]? = some f.slots[m] := Array.getElem?_eq_getElem hlt
      simp [hslot, hlt]
    · simp [slots_of_size_le (Nat.le_of_not_lt hlt), hlt]
  · simp [hm, Ne.symm hm]

/-- A pushed value takes the next free slot. -/
theorem slots_push (f : Forest α) (v : α) (m : NodeId) :
    (f.push v).slots[m]? = if m = f.size then some { value := v } else f.slots[m]? :=
  Array.getElem?_push

@[simp] theorem value?_push (f : Forest α) (v : α) (m : NodeId) :
    (f.push v).value? m = if m = f.size then some v else f.value? m := by
  simp only [value?, slots_push]
  split <;> rfl

@[simp] theorem parent?_push (f : Forest α) (v : α) (m : NodeId) : (f.push v).parent? m = f.parent? m := by
  simp only [parent?, slots_push]
  split
  · next hm => simp [hm, size]
  · rfl

@[simp] theorem children_push (f : Forest α) (v : α) (m : NodeId) : (f.push v).children m = f.children m := by
  simp only [children, slots_push]
  split
  · next hm => simp [hm, size]
  · rfl

@[simp] theorem value?_modifyValue (f : Forest α) (n : NodeId) (g : α → α) (m : NodeId) :
    (f.modifyValue n g).value? m = if n = m then (f.value? m).map g else f.value? m := by
  simp only [value?, modifyValue, slots_modify]
  split <;> simp [Function.comp_def]

@[simp] theorem parent?_modifyValue (f : Forest α) (n : NodeId) (g : α → α) (m : NodeId) :
    (f.modifyValue n g).parent? m = f.parent? m := by
  rw [modifyValue, parent?_modify]
  exact fun _ => rfl

@[simp] theorem children_modifyValue (f : Forest α) (n : NodeId) (g : α → α) (m : NodeId) :
    (f.modifyValue n g).children m = f.children m := by
  rw [modifyValue, children_modify]
  exact fun _ => rfl

@[simp] theorem value?_detach (f : Forest α) (n m : NodeId) : (f.detach n).value? m = f.value? m := by
  unfold detach
  split
  · rfl
  · rw [value?_modify, value?_modify] <;> exact fun _ => rfl

@[simp] theorem parent?_detach (f : Forest α) (n m : NodeId) :
    (f.detach n).parent? m = if m = n then none else f.parent? m := by
  unfold detach
  split
  · next hp => split <;> simp_all
  · rw [parent?_modify_parent, parent?_modify]
    · simp
    · exact fun _ => rfl

/-- A detached node is taken out of the children of its parent. -/
theorem children_detach (f : Forest α) (n q : NodeId) :
    (f.detach n).children q = if f.parent? n = some q then (f.children q).filter (· != n) else f.children q := by
  unfold detach
  split
  · next hp => simp [hp]
  · next p hp =>
    rw [children_modify _ _ fun _ => ?_, f.children_modify_children p (List.filter (· != n)), hp]
    swap; · rfl
    by_cases hq : q = p
    · subst hq
      by_cases hlt : q < f.size
      · simp [hlt]
      · simp [hlt, children_of_size_le (Nat.le_of_not_lt hlt)]
    · simp [hq, Ne.symm hq]

@[simp] theorem value?_attachLast (f : Forest α) (p c m : NodeId) : (f.attachLast p c).value? m = f.value? m := by
  rw [attachLast, value?_modify, value?_modify] <;> exact fun _ => rfl

/-- The attached node has the new parent, and the others keep theirs. -/
theorem parent?_attachLast (hc : c < f.size) (p m : NodeId) :
    (f.attachLast p c).parent? m = if m = c then some p else f.parent? m := by
  rw [attachLast, parent?_modify_parent, parent?_modify, size_modify, if_pos hc]
  exact fun _ => rfl

/-- The attached node comes last among the children of its new parent. -/
theorem children_attachLast (hp : p < f.size) (c q : NodeId) :
    (f.attachLast p c).children q = if q = p then f.children p ++ [c] else f.children q := by
  rw [attachLast, children_modify, f.children_modify_children p (· ++ [c]), if_pos hp]
  exact fun _ => rfl

/-! ### Well-formedness -/

/-- The links decide whether a forest is well-formed. -/
theorem WellFormed.of_links {β : Type} {g : Forest β} (h : f.WellFormed)
    (hparent : ∀ m, g.parent? m = f.parent? m) (hchildren : ∀ m, g.children m = f.children m) : g.WellFormed where
  parent_iff n p := by rw [hparent, hchildren]; exact h.parent_iff n p
  nodup p := by rw [hchildren]; exact h.nodup p
  acyclic := by
    obtain ⟨depth, hdepth⟩ := h.acyclic
    exact ⟨depth, fun n p hp => hdepth n p (hparent n ▸ hp)⟩

/-- The empty forest is well-formed. -/
theorem wellFormed_empty : (empty : Forest α).WellFormed where
  parent_iff n p := by simp [empty, parent?, children]
  nodup p := by simp [empty, children]
  acyclic := ⟨id, fun n p hp => by simp [empty, parent?] at hp⟩

/-- Pushing a value keeps a forest well-formed. -/
theorem WellFormed.push (h : f.WellFormed) (v : α) : (f.push v).WellFormed :=
  h.of_links (parent?_push f v) (children_push f v)

/-- Modifying a value keeps a forest well-formed. -/
theorem WellFormed.modifyValue (h : f.WellFormed) (n : NodeId) (g : α → α) : (f.modifyValue n g).WellFormed :=
  h.of_links (parent?_modifyValue f n g) (children_modifyValue f n g)

/-- The children of every node after a detachment are those before it without the detached node. -/
theorem WellFormed.children_detach (h : f.WellFormed) (n q : NodeId) :
    (f.detach n).children q = (f.children q).filter (· != n) := by
  rw [Forest.children_detach]
  split
  · rfl
  · next hq =>
    refine (List.filter_eq_self.2 fun m hm => bne_iff_ne.2 ?_).symm
    rintro rfl
    exact hq ((h.parent_iff m q).2 hm)

/-- Detaching a node keeps a forest well-formed. -/
theorem WellFormed.detach (h : f.WellFormed) (n : NodeId) : (f.detach n).WellFormed where
  parent_iff m q := by
    rw [parent?_detach, h.children_detach]
    by_cases hm : m = n
    · simp [hm]
    · simp [hm, h.parent_iff]
  nodup q := by
    rw [h.children_detach]
    exact (h.nodup q).filter _
  acyclic := by
    obtain ⟨depth, hdepth⟩ := h.acyclic
    refine ⟨depth, fun m q hq => hdepth m q ?_⟩
    rw [parent?_detach] at hq
    split at hq
    · cases hq
    · exact hq

/-- Detaching a node puts nothing above another one that was not there. -/
theorem WellFormed.mem_lineage_of_detach (h : f.WellFormed) (hm : m ∈ (f.detach n).lineage q) :
    m ∈ f.lineage q := by
  induction q using (h.detach n).induction_from_top with
  | step q ih =>
    rcases (h.detach n).mem_lineage_iff.1 hm with rfl | ⟨p, hp, hmp⟩
    · exact self_mem_lineage f m
    · have hold : f.parent? q = some p := by
        rw [parent?_detach] at hp
        split at hp
        · cases hp
        · exact hp
      exact h.mem_lineage_iff.2 (.inr ⟨p, hold, ih p hp hmp⟩)

/-- The nodes of the attached subtree move below the new parent, and each keeps its place above its children. -/
theorem WellFormed.exists_rank_attachLast (h : f.WellFormed) (hc : c < f.size) (habove : c ∉ f.lineage p) :
    ∃ depth : NodeId → Nat, ∀ n q, (f.attachLast p c).parent? n = some q → depth q < depth n := by
  obtain ⟨depth, hdepth⟩ := h.acyclic
  classical
  refine ⟨fun n => if c ∈ f.lineage n then depth n + depth p + 1 else depth n, fun n q hq => ?_⟩
  rw [parent?_attachLast hc] at hq
  split at hq
  · next hn =>
    cases hq
    subst hn
    simp only [self_mem_lineage, habove, if_true, if_false]
    omega
  · next hn =>
    have hlt := hdepth n q hq
    have hiff : c ∈ f.lineage n ↔ c ∈ f.lineage q := by
      rw [h.lineage_of_parent hq]
      simp [Ne.symm hn]
    simp only [hiff]
    split <;> omega

/-- Attaching a loose node keeps a forest well-formed, unless it is put below itself. -/
theorem WellFormed.attachLast (h : f.WellFormed) (hp : p < f.size) (hc : c < f.size)
    (hloose : f.parent? c = none) (habove : c ∉ f.lineage p) : (f.attachLast p c).WellFormed where
  parent_iff m q := by
    have hnot : ∀ q, c ∉ f.children q := fun q hq => by simp [(h.parent_iff c q).2 hq] at hloose
    rw [parent?_attachLast hc, children_attachLast hp]
    by_cases hm : m = c
    · subst hm
      by_cases hq : q = p
      · simp [hq]
      · simp [hq, Ne.symm hq, hnot q]
    · by_cases hq : q = p
      · simp [hm, hq, h.parent_iff]
      · simp [hm, hq, h.parent_iff]
  nodup q := by
    rw [children_attachLast hp]
    split
    · refine List.nodup_append.2 ⟨h.nodup p, List.nodup_singleton c, ?_⟩
      rintro a ha b hb rfl
      rw [List.mem_singleton.1 hb] at ha
      simp [(h.parent_iff c p).2 ha] at hloose
    · exact h.nodup q
  acyclic := h.exists_rank_attachLast hc habove

end ElementLocator.Forest
