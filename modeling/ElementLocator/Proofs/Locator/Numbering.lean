import ElementLocator.Proofs.Locator.Registry

/-!
# The registry under changes

Nodes are registered, the last ones are forgotten, all are forgotten, and values are chosen for descriptors, in any
order. After every such history the handles number the registered nodes without gaps, the index gives each node its
handle and gives no other node any, and a node that was forgotten comes back without the values it had.
-/

namespace ElementLocator.Locator.Registry

variable {r : Registry} {n : NodeId} {h k : Handle}

/-! ### Changes -/

/-- What can be done to a registry. -/
inductive Change where
  | insert (n : NodeId)
  | truncate (size : Nat)
  | clear
  | choose (h : Handle) (d : Document) (config : Config) (name value : String) (included : Bool)

/-- The registry after a change. A choice that is refused, or is for a handle that stands for nothing, changes
nothing. -/
def change (r : Registry) : Change → Registry
  | .insert n => (r.insert n).2
  | .truncate size => r.truncate size
  | .clear => {}
  | .choose h d config name value included =>
    match r.setIncluded h d config name value included with
    | .ok (some (_, chosen)) => chosen
    | _ => r

/-- The registry after changes. -/
def changes (r : Registry) (history : List Change) : Registry := history.foldl change r

/-! ### Numbers -/

/-- Inserting a node that is known gives its handle and changes nothing. -/
theorem insert_of_lookup_eq_some (hlookup : r.lookup n = some h) : r.insert n = (h, r) := by
  rw [insert, hlookup]

/-- Extending the registry keeps its descriptors. -/
theorem get?_extend_of_lt (hlt : h < r.size) (ns : List NodeId) : (r.extend ns).get? h = r.get? h :=
  List.getElem?_append_left hlt

/-- The node that extends the registry gets a fresh descriptor at its end. -/
theorem get?_extend_size (r : Registry) (n : NodeId) : (r.extend [n]).get? r.size = some { node := n } := by
  simp [get?, extend, size]

/-- No node is registered twice, and the index lists the registered nodes. -/
structure Numbered (r : Registry) : Prop where
  indexed : r.Indexed
  nodup : r.nodes.Nodup

/-- The empty registry is numbered. -/
theorem numbered_empty : Numbered {} := ⟨indexed_empty, List.nodup_nil⟩

namespace Numbered

/-- A node has a handle if it is registered. -/
theorem lookup_eq_none_iff (hr : r.Numbered) : r.lookup n = none ↔ n ∉ r.nodes := by
  rw [hr.indexed.lookup_eq]
  split <;> simp_all

/-- The index undoes the numbering. -/
theorem lookup_eq_some_iff (hr : r.Numbered) : r.lookup n = some h ↔ r.node? h = some n := by
  rw [hr.indexed.lookup_eq, node?_eq]
  constructor
  · intro hlookup
    obtain ⟨hn, heq⟩ := Option.ite_none_right_eq_some.1 hlookup
    rw [← Option.some.inj heq]
    exact List.getElem?_idxOf hn
  · intro hnode
    obtain ⟨hlt, heq⟩ := List.getElem?_eq_some_iff.1 hnode
    rw [if_pos (List.mem_of_getElem? hnode), ← heq, hr.nodup.idxOf_getElem]

/-- Inserting a node that is not known extends the registry by it. -/
theorem insert_of_lookup_eq_none (hr : r.Numbered) (hlookup : r.lookup n = none) :
    r.insert n = (r.size, r.extend [n]) :=
  hr.indexed.insert_of_not_mem (hr.lookup_eq_none_iff.1 hlookup)

/-- Extending a numbered registry by a new node keeps it numbered. -/
protected theorem extend (hr : r.Numbered) (hn : n ∉ r.nodes) : (r.extend [n]).Numbered where
  indexed := hr.indexed.extend [n]
  nodup := by
    rw [nodes_extend]
    exact List.concat_eq_append ▸ hr.nodup.concat hn

/-- Inserting keeps a registry numbered. -/
protected theorem insert (hr : r.Numbered) (n : NodeId) : (r.insert n).2.Numbered := by
  cases hlookup : r.lookup n with
  | some h =>
    rw [insert_of_lookup_eq_some hlookup]
    exact hr
  | none =>
    rw [hr.insert_of_lookup_eq_none hlookup]
    exact hr.extend (hr.lookup_eq_none_iff.1 hlookup)

/-- Truncating keeps a registry numbered, since what is left is its front. -/
protected theorem truncate (hr : r.Numbered) (size : Nat) : (r.truncate size).Numbered where
  indexed := hr.indexed.truncate size
  nodup := by
    rw [nodes_truncate]
    exact hr.nodup.sublist (List.take_sublist size r.nodes)

/-- A choice registers the same nodes under the same handles. -/
theorem choose (hr : r.Numbered) {d : Document} {config : Config} {name value : String} {included changed : Bool}
    {chosen : Registry} (hset : r.setIncluded h d config name value included = .ok (some (changed, chosen))) :
    chosen.Numbered ∧ chosen.nodes = r.nodes := by
  obtain ⟨descriptor, refined, hget, hrefined, rfl⟩ := setIncluded_eq_some hset
  have hnode : refined.node = descriptor.node := (descriptor_setIncluded_eq_ok hrefined).2.2.1
  have hnodes : (r.set h refined).nodes = r.nodes := nodes_set hget hnode
  exact ⟨⟨hr.indexed.set hget hnode, hnodes ▸ hr.nodup⟩, hnodes⟩

/-- Every change keeps the numbering. -/
theorem change (hr : r.Numbered) (c : Change) : (r.change c).Numbered := by
  cases c with
  | insert n => exact hr.insert n
  | truncate size => exact hr.truncate size
  | clear => exact numbered_empty
  | choose h d config name value included =>
    rw [Registry.change]
    split
    · next hset => exact (hr.choose hset).1
    · exact hr

/-- A numbered registry stays numbered through every history. -/
theorem changes (hr : r.Numbered) (history : List Change) : (r.changes history).Numbered := by
  induction history generalizing r with
  | nil => exact hr
  | cons c rest ih => exact ih (hr.change c)

/-! ### Forgotten nodes -/

/-- A change other than its registration does not register a node. -/
theorem not_mem_change (hr : r.Numbered) (hn : n ∉ r.nodes) {c : Change} (hc : c ≠ .insert n) :
    n ∉ (r.change c).nodes := by
  cases c with
  | insert m =>
    cases hlookup : r.lookup m with
    | some h => rwa [Registry.change, insert_of_lookup_eq_some hlookup]
    | none =>
      rw [Registry.change, hr.insert_of_lookup_eq_none hlookup, nodes_extend, List.mem_append, List.mem_singleton]
      rintro (hmem | rfl)
      · exact hn hmem
      · exact hc rfl
  | truncate size =>
    rw [Registry.change, nodes_truncate]
    exact fun hmem => hn (List.mem_of_mem_take hmem)
  | clear => exact List.not_mem_nil
  | choose h d config name value included =>
    rw [Registry.change]
    split
    · next hset => rwa [(hr.choose hset).2]
    · exact hn

/-- A node that is not known and never inserted stays unknown. -/
theorem not_mem_changes (hr : r.Numbered) (hn : n ∉ r.nodes) {history : List Change}
    (hhistory : ∀ c ∈ history, c ≠ .insert n) : n ∉ (r.changes history).nodes := by
  induction history generalizing r with
  | nil => exact hn
  | cons c rest ih =>
    obtain ⟨hc, hrest⟩ := List.forall_mem_cons.1 hhistory
    exact ih (hr.change c) (hr.not_mem_change hn hc) hrest

/-- Cutting the list forgets the nodes with the higher handles. -/
theorem not_mem_truncate (hr : r.Numbered) (hlookup : r.lookup n = some h) (hcut : k ≤ h) :
    n ∉ (r.truncate k).nodes := by
  intro hmem
  obtain ⟨i, hi⟩ := List.getElem?_of_mem hmem
  rw [nodes_truncate, List.getElem?_take] at hi
  obtain ⟨hik, hi⟩ := Option.ite_none_right_eq_some.1 hi
  have hlookup' : r.lookup n = some i := hr.lookup_eq_some_iff.2 (node?_eq r i ▸ hi)
  have heq : h = i := Option.some.inj (hlookup.symm.trans hlookup')
  exact Nat.not_lt.2 hcut (heq ▸ hik)

end Numbered

/-! ### Consistency -/

/-- The handles number the registered nodes, registering a node adds at most one descriptor behind the others, and
cutting the list forgets the descriptors behind the cut, together with the values they had. -/
structure Consistent (r : Registry) : Prop where
  lookup : ∀ n h, r.lookup n = some h ↔ h < r.size ∧ ∃ descriptor, r.get? h = some descriptor ∧ descriptor.node = n
  once : ∀ h k x y, r.get? h = some x → r.get? k = some y → x.node = y.node → h = k
  insert_stored : ∀ n h, r.lookup n = some h → r.insert n = (h, r)
  insert_new : ∀ n, r.lookup n = none → ∃ extended, r.insert n = (r.size, extended) ∧
    extended.size = r.size + 1 ∧ extended.get? r.size = some { node := n } ∧
    (∀ h < r.size, extended.get? h = r.get? h) ∧ ∀ m ≠ n, extended.lookup m = r.lookup m
  size_truncate : ∀ k, (r.truncate k).size = min k r.size
  get?_truncate : ∀ k h, (r.truncate k).get? h = if h < k then r.get? h else none
  insert_forgotten : ∀ k n h later, r.lookup n = some h → k ≤ h → (∀ c ∈ later, c ≠ .insert n) →
    ∃ id registry, ((r.truncate k).changes later).insert n = (id, registry) ∧ registry.get? id = some { node := n }

namespace Numbered

/-- Extending the registry by a node changes the look-up of no other one. -/
theorem lookup_extend (hr : r.Numbered) (hn : n ∉ r.nodes) {m : NodeId} (hm : m ≠ n) :
    (r.extend [n]).lookup m = r.lookup m := by
  rw [(hr.extend hn).indexed.lookup_eq, hr.indexed.lookup_eq, nodes_extend]
  by_cases hmem : m ∈ r.nodes
  · simp [hmem, List.idxOf_append]
  · simp [hmem, hm]

/-- A numbered registry is consistent. -/
theorem consistent (hr : r.Numbered) : r.Consistent where
  lookup n h := by
    rw [hr.lookup_eq_some_iff, node?, Option.map_eq_some_iff, iff_and_self]
    rintro ⟨descriptor, hget, -⟩
    exact (List.getElem?_eq_some_iff.1 hget).1
  once h k x y hx hy hnode := by
    have hh : r.lookup y.node = some h := hr.lookup_eq_some_iff.2 (by rw [node?, hx, Option.map_some, hnode])
    have hk : r.lookup y.node = some k := hr.lookup_eq_some_iff.2 (by rw [node?, hy, Option.map_some])
    exact Option.some.inj (hh.symm.trans hk)
  insert_stored n h hlookup := insert_of_lookup_eq_some hlookup
  insert_new n hlookup := by
    have hn : n ∉ r.nodes := hr.lookup_eq_none_iff.1 hlookup
    refine ⟨r.extend [n], hr.insert_of_lookup_eq_none hlookup, ?_, get?_extend_size r n,
      fun h hlt => get?_extend_of_lt hlt [n], fun m hm => hr.lookup_extend hn hm⟩
    rw [← length_nodes, nodes_extend, List.length_append, length_nodes, List.length_singleton]
  size_truncate k := by
    rw [← length_nodes, nodes_truncate, List.length_take, length_nodes]
  get?_truncate k h := List.getElem?_take
  insert_forgotten k n h later hlookup hcut hlater := by
    have hlate := (hr.truncate k).changes later
    have hn := (hr.truncate k).not_mem_changes (hr.not_mem_truncate hlookup hcut) hlater
    exact ⟨_, _, hlate.insert_of_lookup_eq_none (hlate.lookup_eq_none_iff.2 hn), get?_extend_size _ n⟩

end Numbered

/-- After every history of changes, the registry is consistent. -/
theorem consistent_changes (history : List Change) : (changes {} history).Consistent :=
  (numbered_empty.changes history).consistent

/-- The node 7 is registered again behind the cut. -/
example : (changes {} [.insert 4, .insert 7, .truncate 1, .insert 9, .insert 7]).lookup 7 = some 2 := by decide

end ElementLocator.Locator.Registry
