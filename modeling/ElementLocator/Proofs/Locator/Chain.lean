import ElementLocator.Proofs.Document.Navigation
import ElementLocator.Proofs.Locator.Registry

/-!
# Chains and branches

The chain of a node is a list of elements, each the parent of the one before it, that ends right below the document
element or at an element without a parent element. Registering a chain numbers it from zero on; registering a
branch beside it numbers the nodes up to the first one that the chain already has.
-/

namespace ElementLocator

namespace Document.Sound

variable {d : Document} {m n t : NodeId}

/-! ### The nodes of a chain -/

/-- A chain is empty, ends at the node, or goes on with the chain of the parent. -/
theorem chainBelowTop_cases (h : d.Sound) (n : NodeId) :
    d.documentElement? = some n ∧ d.chainBelowTop n = [] ∨
      d.parentElement? n = none ∧ d.chainBelowTop n = [n] ∨
        ∃ p, d.parentElement? n = some p ∧ d.chainBelowTop n = n :: d.chainBelowTop p := by
  by_cases htop : d.documentElement? = some n
  · exact .inl ⟨htop, chainBelowTop_of_top htop⟩
  cases hp : d.parentElement? n with
  | none => exact .inr (.inl ⟨rfl, h.chainBelowTop_of_none htop hp⟩)
  | some p => exact .inr (.inr ⟨p, rfl, h.chainBelowTop_of_parent htop hp⟩)

/-- The chain of a node begins with the node, unless it is the document element. -/
theorem head?_chainBelowTop (hn : d.documentElement? ≠ some n) : (d.chainBelowTop n).head? = some n := by
  obtain ⟨above, hlineage⟩ := exists_elementLineage_eq_cons d n
  rw [chainBelowTop, hlineage, List.takeWhile_cons_of_pos (by simpa using hn)]
  rfl

/-- The chain of a node is a part of its lineage. -/
theorem chainBelowTop_sublist (d : Document) (n : NodeId) : (d.chainBelowTop n).Sublist (d.nodes.lineage n) := by
  obtain ⟨above, hlineage⟩ := Forest.WellFormed.exists_lineage_eq_cons d.nodes n
  refine (List.takeWhile_sublist _).trans ?_
  rw [elementLineage, hlineage]
  exact (List.takeWhile_sublist _).cons_cons n

/-- No node occurs twice in a chain. -/
theorem chainBelowTop_nodup (h : d.Sound) (n : NodeId) : (d.chainBelowTop n).Nodup :=
  (h.wellFormed.lineage_nodup n).sublist (chainBelowTop_sublist d n)

/-- Each node of a chain is followed by its parent. -/
theorem chainBelowTop_isChain (h : d.Sound) (n : NodeId) :
    (d.chainBelowTop n).IsChain fun child p => d.parentElement? child = some p := by
  induction n using h.wellFormed.induction_from_top with
  | step n ih =>
    rcases h.chainBelowTop_cases n with ⟨-, heq⟩ | ⟨-, heq⟩ | ⟨p, hp, heq⟩
    · rw [heq]
      exact List.IsChain.nil
    · rw [heq]
      exact List.IsChain.singleton n
    · rw [heq, List.isChain_cons]
      refine ⟨fun q hq => ?_, ih p (parentElement?_eq_some_iff.1 hp).1⟩
      by_cases htop : d.documentElement? = some p
      · simp [chainBelowTop_of_top htop] at hq
      · rw [head?_chainBelowTop htop] at hq
        rw [hp]
        exact hq

/-- The last node of a chain stands right below the document element or has no parent element. -/
theorem parentElement?_of_getLast? (h : d.Sound) (ht : (d.chainBelowTop n).getLast? = some t) :
    d.parentElement? t = none ∨ d.parentElement? t = d.documentElement? := by
  induction n using h.wellFormed.induction_from_top with
  | step n ih =>
    rcases h.chainBelowTop_cases n with ⟨-, heq⟩ | ⟨hnone, heq⟩ | ⟨p, hp, heq⟩
    · simp [heq] at ht
    · rw [heq, List.getLast?_singleton, Option.some.injEq] at ht
      exact .inl (ht ▸ hnone)
    · rw [heq, List.getLast?_cons] at ht
      by_cases htop : d.documentElement? = some p
      · rw [chainBelowTop_of_top htop] at ht
        cases ht
        exact .inr (hp.trans htop.symm)
      · have hsome : (d.chainBelowTop p).getLast?.isSome := by
          have hne : d.chainBelowTop p ≠ [] := by
            intro hnil
            simpa [hnil] using head?_chainBelowTop htop
          simpa using hne
        obtain ⟨s, hs⟩ := Option.isSome_iff_exists.1 hsome
        rw [hs, Option.getD_some] at ht
        exact ih p (parentElement?_eq_some_iff.1 hp).1 (hs.trans ht)

/-- The chain of an element has only elements. -/
theorem isElement_of_mem_chainBelowTop (hn : d.isElement n = true) (hm : m ∈ d.chainBelowTop n) :
    d.isElement m = true := by
  have hmem : m ∈ d.elementLineage n := (List.takeWhile_sublist _).subset hm
  rcases List.mem_cons.1 hmem with rfl | habove
  · exact hn
  · exact List.mem_takeWhile_imp habove

/-- The nodes of the chain of an attached element are attached. -/
theorem attached_of_mem_chainBelowTop (h : d.Sound) (hn : d.isElement n = true) (hroot : root ∈ d.nodes.lineage n)
    (hm : m ∈ d.chainBelowTop n) : root ∈ d.nodes.lineage m := by
  induction n using h.wellFormed.induction_from_top with
  | step n ih =>
    rcases h.chainBelowTop_cases n with ⟨-, heq⟩ | ⟨-, heq⟩ | ⟨p, hp, heq⟩
    · simp [heq] at hm
    · rw [heq, List.mem_singleton] at hm
      rwa [hm]
    · rw [heq] at hm
      rcases List.mem_cons.1 hm with rfl | hm
      · exact hroot
      obtain ⟨hparent, helement⟩ := parentElement?_eq_some_iff.1 hp
      exact ih p hparent helement (h.root_mem_lineage_parent hn hroot hparent) hm

end Document.Sound

namespace Locator

/-! ### Registering -/

variable {d : Document} {r : Registry} {n : NodeId}

/-- The nodes in front of the first one that satisfies a condition, and that one if there is any, are a front part
of the list. -/
theorem takeWhile_append_find?_isPrefix {α : Type} (p : α → Bool) (l : List α) :
    l.takeWhile (fun a => !p a) ++ (l.find? p).toList <+: l := by
  induction l with
  | nil => simp
  | cons a rest ih =>
    cases hp : p a with
    | true => simp [hp]
    | false => simpa [hp] using ih

/-- What is taken up to the first hit, the hit included, begins as the whole list does. -/
theorem head?_takeWhile_append_find? {α : Type} (p : α → Bool) (l : List α) :
    (l.takeWhile (fun a => !p a) ++ (l.find? p).toList).head? = l.head? := by
  cases l with
  | nil => rfl
  | cons a rest => cases hp : p a <;> simp [hp]

namespace Registry

/-- Into an empty registry the whole chain is inserted, its handles counting from the top down. -/
theorem insertChain_empty (h : d.Sound) (n : NodeId) :
    insertChain {} d n = ((List.range (d.chainBelowTop n).length).reverse, extend {} (d.chainBelowTop n)) := by
  rw [insertChain, indexed_empty.insertAll_of_not_mem (h.chainBelowTop_nodup n) (by simp [nodes])]
  simp [size, List.range_eq_range']

/-- On a chain of all handles every registered node is found. -/
theorem Indexed.lookupOn_range (hr : r.Indexed) (n : NodeId) :
    r.lookupOn (List.range r.size).reverse n = if n ∈ r.nodes then some (r.nodes.idxOf n) else none := by
  rw [lookupOn, hr.lookup_eq]
  split
  · next hn =>
    have hlt := List.idxOf_lt_length_iff.2 hn
    rw [length_nodes] at hlt
    simp [Option.filter, hlt]
  · rfl

/-- A branch inserts the nodes in front of the first one that the registry knows, and shares that one. -/
theorem insertBranch_range (h : d.Sound) (hr : r.Indexed) (n : NodeId) :
    r.insertBranch d n (List.range r.size).reverse =
      let own := (d.chainBelowTop n).takeWhile fun m => !decide (m ∈ r.nodes)
      (⟨((d.chainBelowTop n).find? fun m => decide (m ∈ r.nodes)).map r.nodes.idxOf,
          (List.range' r.size own.length).reverse⟩, r.extend own) := by
  have hisNone : (fun m => (r.lookupOn (List.range r.size).reverse m).isNone) =
      fun m => !decide (m ∈ r.nodes) := by
    funext m
    rw [hr.lookupOn_range]
    split <;> simp_all
  have hshared : ∀ walk : List NodeId, walk.findSome? (r.lookupOn (List.range r.size).reverse) =
      (walk.find? fun m => decide (m ∈ r.nodes)).map r.nodes.idxOf := by
    intro walk
    induction walk with
    | nil => rfl
    | cons m rest ih =>
      rw [List.findSome?_cons, List.find?_cons, hr.lookupOn_range]
      by_cases hm : m ∈ r.nodes
      · simp [hm]
      · simpa [hm] using ih
  dsimp only
  rw [insertBranch, hisNone, hshared]
  dsimp only
  rw [hr.insertAll_of_not_mem ((h.chainBelowTop_nodup n).sublist (List.takeWhile_sublist _))]
  intro m hm
  simpa using List.mem_takeWhile_imp hm

end Registry

end Locator

end ElementLocator
