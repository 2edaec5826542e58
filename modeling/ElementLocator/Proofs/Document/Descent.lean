import ElementLocator.Proofs.Document.Navigation

/-!
# Ways down

A way down goes from a node to one of its children, from there to one of its children, and so on; each child on the
way has to be of a given kind. Both kinds of queries look for the ends of such ways, one of them from the top and the
other from the bottom.
-/

namespace ElementLocator.Document

variable {d : Document} {kinds : List (NodeId → Prop)} {kind : NodeId → Prop} {n p : NodeId}

/-- Children of these kinds lead from a node to another one, each being the parent of the next. -/
def Descends (d : Document) : List (NodeId → Prop) → NodeId → NodeId → Prop
  | [], p, n => n = p
  | kind :: rest, p, n => ∃ k, d.parent? k = some p ∧ kind k ∧ d.Descends rest k n

/-- A descent by one step is a child of that kind. -/
theorem descends_singleton : d.Descends [kind] p n ↔ d.parent? n = some p ∧ kind n := by
  constructor
  · intro h
    obtain ⟨k, hk, hkind, rfl⟩ := h
    exact ⟨hk, hkind⟩
  · intro h
    exact ⟨n, h.1, h.2, rfl⟩

/-- A way that goes down one step farther. -/
theorem descends_concat :
    d.Descends (kinds ++ [kind]) p n ↔ ∃ k, d.Descends kinds p k ∧ d.parent? n = some k ∧ kind n := by
  induction kinds generalizing p with
  | nil =>
    rw [List.nil_append, descends_singleton]
    constructor
    · intro h
      exact ⟨p, rfl, h⟩
    · intro h
      obtain ⟨k, rfl, hn⟩ := h
      exact hn
  | cons other rest ih =>
    simp only [List.cons_append, Descends, ih]
    constructor
    · intro h
      obtain ⟨k, hk, hother, m, hm, hn⟩ := h
      exact ⟨m, ⟨k, hk, hother, hm⟩, hn⟩
    · intro h
      obtain ⟨m, ⟨k, hk, hother, hm⟩, hn⟩ := h
      exact ⟨k, hk, hother, m, hm, hn⟩

/-- A descent starts at a node of the lineage. -/
theorem Descends.mem_lineage (hd : d.Sound) (h : d.Descends kinds p n) : p ∈ d.nodes.lineage n := by
  induction kinds generalizing p with
  | nil =>
    rw [show n = p from h]
    exact Forest.WellFormed.self_mem_lineage d.nodes p
  | cons kind rest ih =>
    obtain ⟨k, hk, -, hn⟩ := h
    exact hd.wellFormed.mem_lineage_trans (hd.wellFormed.parent_mem_lineage hk) (ih hn)

/-- Where the kinds are wider, there are more ways. -/
theorem Descends.mono {α : Type} {items : List α} {narrow wide : α → NodeId → Prop}
    (hwide : ∀ x ∈ items, ∀ k, narrow x k → wide x k) (h : d.Descends (items.map narrow) p n) :
    d.Descends (items.map wide) p n := by
  induction items generalizing p with
  | nil => exact h
  | cons x items ih =>
    obtain ⟨k, hk, hx, hn⟩ := h
    have hmore := ih (fun y hy => hwide y (List.mem_cons_of_mem x hy)) hn
    exact ⟨k, hk, hwide x List.mem_cons_self k hx, hmore⟩

end ElementLocator.Document
