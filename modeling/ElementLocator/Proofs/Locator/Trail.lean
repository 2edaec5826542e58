import ElementLocator.Proofs.Document.Descent
import ElementLocator.Proofs.Document.Positions
import ElementLocator.Proofs.Locator.Coherence
import ElementLocator.Proofs.Locator.WrittenPath

/-!
# Trails

The entries of a scope are a trail: they lead from parent to child down to the picked node. Other nodes can follow
the same trail, because a step only says which tag a child has, and which place if it is not the first with that tag.
Where two ways that start at the same node first part, the trail takes the earlier sibling, so whatever follows a
trail comes behind the node at its end.
-/

namespace ElementLocator.Locator

variable {d : Document} {start leaf n m p : NodeId} {descriptors : List Descriptor} {x : Descriptor}

/-! ### Following a trail -/

/-- The element has the tag of the described node, and its place too if that one is not the first with the tag. -/
structure Descriptor.Resembles (d : Document) (descriptor : Descriptor) (n : NodeId) : Prop where
  tag : d.localName? n = d.localName? descriptor.node
  place : d.positionalIndex descriptor.node = 0 ∨ d.positionalIndex n = d.positionalIndex descriptor.node

/-- The described node resembles itself. -/
theorem Descriptor.resembles_node (d : Document) (descriptor : Descriptor) :
    descriptor.Resembles d descriptor.node :=
  ⟨rfl, .inr rfl⟩

/-- What resembles an element is one. -/
theorem Descriptor.Resembles.isElement (h : x.Resembles d n) (hx : d.isElement x.node = true) :
    d.isElement n = true := by
  rw [Document.isElement, h.tag]
  exact hx

/-- The described nodes lead from a node to another one, each being the parent of the next. -/
def Leads (d : Document) : List Descriptor → NodeId → NodeId → Prop
  | [], p, n => n = p
  | x :: rest, p, n => d.parent? x.node = some p ∧ Leads d rest x.node n

/-- Nodes that resemble the described ones lead from a node to another one, each being the parent of the next. -/
def Follows (d : Document) : List Descriptor → NodeId → NodeId → Prop
  | [], p, n => n = p
  | x :: rest, p, n => ∃ k, d.parent? k = some p ∧ x.Resembles d k ∧ Follows d rest k n

/-- The described nodes follow their own trail. -/
theorem Leads.follows (h : Leads d descriptors p n) : Follows d descriptors p n := by
  induction descriptors generalizing p with
  | nil => exact h
  | cons x rest ih => exact ⟨x.node, h.1, x.resembles_node d, ih h.2⟩

/-- Following a trail is descending by nodes that resemble the described ones. -/
theorem follows_iff_descends :
    Follows d descriptors p n ↔ d.Descends (descriptors.map fun x => x.Resembles d) p n := by
  induction descriptors generalizing p with
  | nil => exact Iff.rfl
  | cons x rest ih => simp only [Follows, ih, List.map_cons, Document.Descends]

/-- A trail starts in the lineage of its end. -/
theorem Follows.mem_lineage (hd : d.Sound) (h : Follows d descriptors p n) : p ∈ d.nodes.lineage n :=
  (follows_iff_descends.1 h).mem_lineage hd

/-- A way that is followed one step farther. -/
theorem follows_concat :
    Follows d (descriptors ++ [x]) p n ↔ ∃ k, Follows d descriptors p k ∧ d.parent? n = some k ∧ x.Resembles d n := by
  simp only [follows_iff_descends, List.map_append, List.map_singleton, Document.descends_concat]

/-- A trail that leads one step farther. -/
theorem leads_concat :
    Leads d (descriptors ++ [x]) p n ↔ ∃ k, Leads d descriptors p k ∧ d.parent? x.node = some k ∧ x.node = n := by
  induction descriptors generalizing p with
  | nil =>
    constructor
    · intro h
      obtain ⟨hx, rfl⟩ := h
      exact ⟨p, rfl, hx, rfl⟩
    · intro h
      obtain ⟨k, rfl, hx, rfl⟩ := h
      exact ⟨hx, rfl⟩
  | cons y rest ih =>
    simp only [List.cons_append, Leads, ih]
    constructor
    · intro h
      obtain ⟨hy, k, hk, hx⟩ := h
      exact ⟨k, ⟨hy, hk⟩, hx⟩
    · intro h
      obtain ⟨k, ⟨hy, hk⟩, hx⟩ := h
      exact ⟨hy, k, hk, hx⟩

/-- A trail with entries ends at the node of its last one. -/
theorem Leads.exists_node (h : Leads d descriptors p n) (hne : descriptors ≠ []) :
    ∃ x ∈ descriptors, x.node = n := by
  rw [← List.dropLast_append_getLast hne, leads_concat] at h
  obtain ⟨-, -, -, hx⟩ := h
  exact ⟨_, List.getLast_mem hne, hx⟩

/-- What resembles a node and has the same parent is that node or a later sibling. -/
theorem Descriptor.Resembles.eq_or_later (hd : d.Sound) (h : x.Resembles d n) (hx : d.parent? x.node = some p)
    (hn : d.parent? n = some p) (helement : d.isElement x.node = true) :
    n = x.node ∨ [x.node, n].Sublist (d.nodes.children p) := by
  obtain ⟨tag, htag⟩ := Option.isSome_iff_exists.1 helement
  refine hd.eq_or_pair_sublist_of_positionalIndex_le hx hn htag (h.tag.trans htag) ?_
  rcases h.place with hplace | hplace
  · rw [hplace]
    exact Nat.zero_le _
  · rw [hplace]

/-- Whatever follows a trail from where it starts ends at the node at its end or behind it. By induction along both
ways, up to where they part. -/
theorem Follows.eq_or_later (hd : d.Sound) (helement : ∀ x ∈ descriptors, d.isElement x.node = true)
    (hleads : Leads d descriptors p leaf) (h : Follows d descriptors p n) :
    n = leaf ∨ [leaf, n].Sublist (d.nodes.preorder p) := by
  induction descriptors generalizing p with
  | nil => exact .inl ((show n = p from h).trans (show leaf = p from hleads).symm)
  | cons x rest ih =>
    obtain ⟨hx, hleaf⟩ := hleads
    obtain ⟨k, hk, hresembles, hn⟩ := h
    rcases hresembles.eq_or_later hd hx hk (helement x List.mem_cons_self) with rfl | hlater
    · refine (ih (fun y hy => helement y (List.mem_cons_of_mem x hy)) hleaf hn).imp_right fun hlater => ?_
      exact hlater.trans (hd.wellFormed.preorder_sublist_of_mem_children ((hd.wellFormed.parent_iff _ _).1 hx))
    · exact .inr (hd.wellFormed.pair_sublist_of_siblings hlater (hleaf.follows.mem_lineage hd) (hn.mem_lineage hd))

/-! ### The trail of a scope -/

/-- The described elements lead to a node from where the query starts to search or, if that is the document node, from
the document element. -/
structure Trail (d : Document) (start : NodeId) (descriptors : List Descriptor) (leaf : NodeId) : Prop where
  ne_nil : descriptors ≠ []
  leads : ∃ p, Leads d descriptors p leaf ∧ (p = start ∨ start = Document.root ∧ d.documentElement? = some p)
  element : ∀ x ∈ descriptors, d.isElement x.node = true
  attached : Document.root ∈ d.nodes.lineage start
  start_eq : start = Document.root ∨ d.isElement start = true

/-- The descriptors of a scope, from the top to the picked node. -/
def descriptorsOf (l : Locator) (scope : Scope) : List Descriptor := (l.handles scope).filterMap l.registry.get?

/-- The descriptors of a path are those of its nodes. -/
theorem map_node_descriptorsOf (l : Locator) (scope : Scope) :
    (l.descriptorsOf scope).map Descriptor.node = l.nodesOf (l.handles scope) := by
  rw [descriptorsOf, List.map_filterMap, nodesOf]
  rfl

/-- Elements each of which is the parent of the next one lead from the parent of the first to the last. -/
theorem leads_of_isChain (hlinked : (descriptors.map Descriptor.node).IsChain fun p n => d.parentElement? n = some p)
    (hhead : ∀ t ∈ (descriptors.map Descriptor.node).head?, d.parent? t = some p)
    (hlast : (descriptors.map Descriptor.node).getLast? = some leaf) : Leads d descriptors p leaf := by
  induction descriptors generalizing p with
  | nil => cases hlast
  | cons x rest ih =>
    refine ⟨hhead x.node rfl, ?_⟩
    rw [List.map_cons] at hlinked hlast
    obtain ⟨hnext, hrest⟩ := List.isChain_cons.1 hlinked
    cases rest with
    | nil =>
      cases hlast
      rfl
    | cons y rest =>
      rw [List.map_cons, List.getLast?_cons_cons, ← List.map_cons] at hlast
      exact ih hrest (fun t ht => (Document.parentElement?_eq_some_iff.1 (hnext t ht)).1) hlast

/-- The nodes on the chain of a picked node are attached elements. -/
theorem Picks.mem_chain (hd : d.Sound) {picks : Picks} (hvalid : picks.Valid d) {scope : Scope}
    (hn : n ∈ picks.chain d scope) : d.isElement n = true ∧ Document.root ∈ d.nodes.lineage n := by
  unfold chain at hn
  split at hn
  · cases hn
  · next leaf hleaf =>
    obtain ⟨helement, -, hattached⟩ := validatePick_eq_ok.1 (hvalid scope leaf hleaf)
    have hroot := Document.Sound.isAttached_iff.1 hattached
    exact ⟨Document.Sound.isElement_of_mem_chainBelowTop helement hn,
      hd.attached_of_mem_chainBelowTop helement hroot hn⟩

/-- The handle of the common ancestor, which stands above the entries of a relative path that has one. -/
def sharedOf (l : Locator) : Scope → Option Handle
  | .main => none
  | .relative => l.branch.bind Branch.shared

/-- A path is the shared handle, if there is one, and the handles of its scope. -/
theorem path_eq (l : Locator) (scope : Scope) :
    l.path scope = (l.sharedOf scope).toList ++ l.handles scope := by
  cases scope with
  | main => rfl
  | relative => exact path_relative l

/-- The nodes of a path are those of the shared handle and of the handles of its scope. -/
theorem nodesOf_path (l : Locator) (scope : Scope) :
    l.nodesOf (l.path scope) = l.nodesOf (l.sharedOf scope).toList ++ l.nodesOf (l.handles scope) := by
  rw [path_eq, nodesOf, List.filterMap_append]
  rfl

/-- A query starts to search at the common ancestor or, without one, at the document node. -/
theorem startOf_eq (l : Locator) (scope : Scope) :
    l.startOf scope = ((l.sharedOf scope).bind l.registry.node?).getD Document.root := by
  cases scope <;> rfl

namespace Layout

variable {l : Locator} {picks : Picks} {scope : Scope}

/-- The nodes of a path are attached elements. -/
theorem mem_path (h : Layout d l picks) (hd : d.Sound) (hn : n ∈ l.nodesOf (l.path scope)) :
    d.isElement n = true ∧ Document.root ∈ d.nodes.lineage n :=
  Picks.mem_chain hd h.valid ((h.reverse_nodesOf_path_isPrefix scope).subset (List.mem_reverse.2 hn))

/-- A query starts to search at the document node or at an attached element. -/
theorem startOf_attached (h : Layout d l picks) (hd : d.Sound) (scope : Scope) :
    Document.root ∈ d.nodes.lineage (l.startOf scope) ∧
      (l.startOf scope = Document.root ∨ d.isElement (l.startOf scope) = true) := by
  rw [startOf_eq]
  cases hshared : l.sharedOf scope with
  | none => exact ⟨Forest.WellFormed.self_mem_lineage d.nodes _, .inl rfl⟩
  | some i =>
    have hi : i ∈ l.path scope := by simp [path_eq, hshared]
    obtain ⟨a, ha⟩ := h.exists_node hi
    obtain ⟨helement, hattached⟩ := h.mem_path hd (List.mem_filterMap.2 ⟨i, hi, ha⟩)
    rw [Option.bind_some, ha, Option.getD_some]
    exact ⟨hattached, .inr helement⟩

/-- Where a scope shares no entry, its first entry is a child of the document node or of the document element. -/
theorem exists_parent_of_not_shared (h : Layout d l picks) (hd : d.Sound) (hnest : d.ElementsNest)
    (hshared : l.sharedOf scope = none) :
    ∃ p, (p = Document.root ∨ d.documentElement? = some p) ∧
      ∀ t ∈ (l.nodesOf (l.handles scope)).head?, d.parent? t = some p := by
  have hpath : l.nodesOf (l.path scope) = l.nodesOf (l.handles scope) := by
    rw [nodesOf_path, hshared]
    rfl
  rw [← hpath]
  cases htop : (l.nodesOf (l.path scope)).head? with
  | none => exact ⟨Document.root, .inl rfl, nofun⟩
  | some t =>
    obtain ⟨helement, hroot⟩ := h.mem_path hd (List.mem_of_head? htop)
    have hunshared : scope = .relative → l.branch.bind Branch.shared = none := by
      rintro rfl
      exact hshared
    rcases h.top hd htop hunshared with hnone | ⟨e, he, hparent⟩
    · refine ⟨Document.root, .inl rfl, ?_⟩
      intro t ht
      cases ht
      exact hd.parent_eq_root hnest helement hroot hnone
    · refine ⟨e, .inr he, ?_⟩
      intro t ht
      cases ht
      exact (Document.parentElement?_eq_some_iff.1 hparent).1

/-- The first entry of a scope is a child of the node where the query starts to search or, if that is the document
node, of the document element. -/
theorem exists_parent_of_head? (h : Layout d l picks) (hd : d.Sound) (hnest : d.ElementsNest) (scope : Scope) :
    ∃ p, (p = l.startOf scope ∨ l.startOf scope = Document.root ∧ d.documentElement? = some p) ∧
      ∀ t ∈ (l.nodesOf (l.handles scope)).head?, d.parent? t = some p := by
  rw [startOf_eq]
  cases hshared : l.sharedOf scope with
  | none =>
    obtain ⟨p, hp, hparent⟩ := h.exists_parent_of_not_shared hd hnest hshared
    exact ⟨p, hp.imp_right fun he => ⟨rfl, he⟩, hparent⟩
  | some i =>
    cases scope with
    | main => cases hshared
    | relative =>
      obtain ⟨a, ha, hbelow⟩ := h.shared hd hshared
      rw [Option.bind_some, ha]
      refine ⟨a, .inl rfl, fun t ht => ?_⟩
      obtain ⟨rest, hnodes⟩ := List.head?_eq_some_iff.1 ht
      rw [hnodes] at hbelow
      exact (Document.parentElement?_eq_some_iff.1 hbelow).1

/-- Every handle of a scope has a descriptor. -/
theorem forall₂_descriptorsOf (h : Layout d l picks) (scope : Scope) :
    List.Forall₂ (fun i x => l.registry.get? i = some x) (l.handles scope) (l.descriptorsOf scope) := by
  have hall : ∀ i ∈ l.handles scope, ∃ x, l.registry.get? i = some x := by
    intro i hi
    obtain ⟨t, ht⟩ := h.exists_node (show i ∈ l.path scope by simp [path_eq, hi])
    obtain ⟨x, hx, -⟩ := Option.map_eq_some_iff.1 ht
    exact ⟨x, hx⟩
  rw [descriptorsOf]
  generalize l.handles scope = handles at hall ⊢
  induction handles with
  | nil => exact .nil
  | cons i rest ih =>
    obtain ⟨x, hx⟩ := hall i List.mem_cons_self
    rw [List.filterMap_cons_some hx]
    exact .cons hx (ih fun j hj => hall j (List.mem_cons_of_mem i hj))

/-- A path with handles has descriptors. -/
theorem descriptorsOf_ne_nil (h : Layout d l picks) (hne : l.handles scope ≠ []) : l.descriptorsOf scope ≠ [] := by
  intro hnil
  have hall := h.forall₂_descriptorsOf scope
  rw [hnil] at hall
  exact hne (List.forall₂_nil_right_iff.1 hall)

/-- The descriptors of a scope describe attached elements. -/
theorem mem_descriptorsOf (h : Layout d l picks) (hd : d.Sound) (hx : x ∈ l.descriptorsOf scope) :
    d.isElement x.node = true ∧ Document.root ∈ d.nodes.lineage x.node := by
  have hpath : x.node ∈ l.nodesOf (l.path scope) := by
    rw [nodesOf_path, ← map_node_descriptorsOf]
    exact List.mem_append_right _ (List.mem_map_of_mem hx)
  exact h.mem_path hd hpath

/-- A scope with entries has a trail from where its query starts to search to the picked node. -/
theorem trail (h : Layout d l picks) (hd : d.Sound) (hnest : d.ElementsNest) (hne : l.handles scope ≠ []) :
    ∃ leaf, l.leaf? scope = some leaf ∧ Trail d (l.startOf scope) (l.descriptorsOf scope) leaf := by
  have hnonempty := h.descriptorsOf_ne_nil hne
  have hnodes := map_node_descriptorsOf l scope
  have hpath := nodesOf_path l scope
  have hlinked := h.linked hd scope
  rw [← hnodes] at hpath
  rw [hpath] at hlinked
  obtain ⟨leaf, hlast⟩ : ∃ leaf, ((l.descriptorsOf scope).map Descriptor.node).getLast? = some leaf :=
    Option.isSome_iff_exists.1 (by simpa using hnonempty)
  refine ⟨leaf, ?_, ?_⟩
  · rw [h.leaf?_eq_getLast?, hpath, List.getLast?_append, hlast]
    rfl
  · obtain ⟨p, hp, hhead⟩ := h.exists_parent_of_head? hd hnest scope
    obtain ⟨hattached, hstart⟩ := h.startOf_attached hd scope
    rw [← hnodes] at hhead
    exact ⟨hnonempty, ⟨p, leads_of_isChain hlinked.right_of_append hhead hlast, hp⟩,
      fun x hx => (h.mem_descriptorsOf hd hx).1, hattached, hstart⟩

end Layout

end ElementLocator.Locator
