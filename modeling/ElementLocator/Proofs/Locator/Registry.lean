import ElementLocator.Locator.Chain
import Mathlib

/-!
# The registry as a numbering of nodes

Handles are places in the list of registered nodes. Inserting nodes that are all new numbers them one after the
other from the size of the registry on, and leaves the earlier handles as they were. Choosing attribute values
changes no number. Throughout, the index says of every node at which place it is registered, if it is at all.
-/

namespace ElementLocator.Locator.Registry

variable {r : Registry} {n : NodeId} {h : Handle}

/-- The registered nodes in the order of their handles. -/
def nodes (r : Registry) : List NodeId := r.descriptors.map Descriptor.node

@[simp] theorem length_nodes (r : Registry) : r.nodes.length = r.size := by
  simp [nodes, size]

/-- The node of a handle is found at its place among the nodes. -/
theorem node?_eq (r : Registry) (h : Handle) : r.node? h = r.nodes[h]? := by
  simp [node?, get?, nodes]

@[simp] theorem nodes_truncate (r : Registry) (k : Nat) : (r.truncate k).nodes = r.nodes.take k := by
  simp [nodes, truncate, List.map_take]

/-! ### The index -/

/-- The index lists exactly the registered nodes, each with its handle. -/
def Indexed (r : Registry) : Prop := r.index = r.nodes.zipIdx

/-- The index is determined by the descriptors. -/
theorem Indexed.ext {r' : Registry} (h : r.Indexed) (h' : r'.Indexed) (heq : r.descriptors = r'.descriptors) :
    r = r' := by
  have hindex : r.index = r'.index := by
    rw [h, h', nodes, nodes, heq]
  cases r
  cases r'
  cases heq
  cases hindex
  rfl

/-- The empty registry is indexed. -/
theorem indexed_empty : Indexed {} := rfl

/-- The entries of the index with handles below a bound are those of the first nodes. -/
theorem filter_zipIdx_lt (ns : List NodeId) (s k : Nat) :
    (ns.zipIdx s).filter (fun entry => entry.2 < s + k) = (ns.take k).zipIdx s := by
  induction ns generalizing s k with
  | nil => simp
  | cons n rest ih =>
    cases k with
    | zero =>
      refine List.filter_eq_nil_iff.2 fun entry hentry => ?_
      simpa using List.le_snd_of_mem_zipIdx hentry
    | succ k =>
      rw [List.zipIdx_cons, List.filter_cons_of_pos (by simp), List.take_succ_cons, List.zipIdx_cons, ← ih]
      simp only [Nat.add_right_comm s 1 k, Nat.add_assoc]

/-- A truncated registry is indexed, since the handles that are left are those below the new size. -/
theorem Indexed.truncate (h : r.Indexed) (k : Nat) : (r.truncate k).Indexed := by
  have hfilter := filter_zipIdx_lt r.nodes 0 k
  rw [Nat.zero_add] at hfilter
  rw [Indexed, nodes_truncate, ← hfilter, ← h]
  rfl

/-- In a list that counts its nodes, a node is looked up at its index. -/
theorem lookup_zipIdx (ns : List NodeId) (s : Nat) (n : NodeId) :
    (ns.zipIdx s).lookup n = if n ∈ ns then some (s + ns.idxOf n) else none := by
  induction ns generalizing s with
  | nil => rfl
  | cons m rest ih =>
    rw [List.zipIdx_cons]
    by_cases hn : n = m
    · subst hn
      simp
    · rw [List.lookup_cons, beq_false_of_ne hn]
      dsimp only
      rw [ih, List.idxOf_cons_ne rest (Ne.symm hn)]
      simp [hn, Nat.add_comm, Nat.add_left_comm]

/-- The handle of a node is its place among the registered nodes. -/
theorem Indexed.lookup_eq (h : r.Indexed) (n : NodeId) :
    r.lookup n = if n ∈ r.nodes then some (r.nodes.idxOf n) else none := by
  rw [lookup, h, lookup_zipIdx, Nat.zero_add]

/-! ### Inserting -/

/-- The registry with new descriptors for the nodes behind the others. -/
def extend (r : Registry) (ns : List NodeId) : Registry where
  descriptors := r.descriptors ++ ns.map fun n => { node := n }
  index := r.index ++ ns.zipIdx r.size

@[simp] theorem nodes_extend (r : Registry) (ns : List NodeId) : (r.extend ns).nodes = r.nodes ++ ns := by
  rw [nodes, extend, List.map_append, List.map_map]
  exact congrArg (r.nodes ++ ·) (List.map_id ns)

/-- Extending keeps the registry indexed. -/
theorem Indexed.extend (h : r.Indexed) (ns : List NodeId) : (r.extend ns).Indexed := by
  rw [Indexed, nodes_extend, List.zipIdx_append, ← h, length_nodes, Nat.zero_add]
  rfl

/-- Extending by nothing changes nothing. -/
theorem extend_nil (r : Registry) : r.extend [] = r := by
  simp [extend]

/-- Extending node by node comes to the same as extending by the list. -/
theorem extend_cons (r : Registry) (n : NodeId) (ns : List NodeId) :
    r.extend (n :: ns) = (r.extend [n]).extend ns := by
  simp [extend, size]

/-- Inserting a node that is not there extends the registry by it. -/
theorem Indexed.insert_of_not_mem (h : r.Indexed) (hn : n ∉ r.nodes) : r.insert n = (r.size, r.extend [n]) := by
  rw [insert, h.lookup_eq, if_neg hn]
  rfl

/-- New nodes get the handles from the size of the registry on. -/
theorem Indexed.insertAll_of_not_mem (h : r.Indexed) {ns : List NodeId} (hnodup : ns.Nodup)
    (hnew : ∀ n ∈ ns, n ∉ r.nodes) : r.insertAll ns = (List.range' r.size ns.length, r.extend ns) := by
  induction ns generalizing r with
  | nil => rw [insertAll, extend_nil, List.length_nil, List.range'_zero]
  | cons n rest ih =>
    obtain ⟨hn, hrest⟩ := List.nodup_cons.1 hnodup
    have hsize : (r.extend [n]).size = r.size + 1 := by
      rw [← length_nodes, nodes_extend, List.length_append, length_nodes, List.length_singleton]
    rw [insertAll, h.insert_of_not_mem (hnew n List.mem_cons_self)]
    dsimp only
    rw [ih (h.extend [n]) hrest, ← extend_cons, hsize, List.length_cons, List.range'_succ]
    intro m hm
    rw [nodes_extend, List.mem_append, List.mem_singleton]
    rintro (hmem | rfl)
    · exact hnew m (List.mem_cons_of_mem n hm) hmem
    · exact hn hm

/-! ### Refining -/

/-- A choice is refused if the settings do not allow the attribute, if the node does not have it, or else if the node
does not offer the value. -/
theorem descriptor_setIncluded_eq_error_iff {descriptor : Descriptor} {d : Document} {config : Config}
    {name value : String} {included : Bool} {e : Error} :
    descriptor.setIncluded d config name value included = .error e ↔
      (config.allows (Text.lower name) = false ∨ d.hasAttribute descriptor.node (Text.lower name) = false) ∧
          e = .attributeNotAllowed (Text.lower name) ∨
        config.allows (Text.lower name) = true ∧ d.hasAttribute descriptor.node (Text.lower name) = true ∧
          value ∉ candidateValues d descriptor.node (Text.lower name) ∧ e = .valueNotPresent (Text.lower name) value := by
  rw [Descriptor.setIncluded]
  generalize Text.lower name = name
  cases config.allows name
  · simp [@eq_comm _ e]
  cases d.hasAttribute descriptor.node name
  · simp [@eq_comm _ e]
  by_cases hvalue : value ∈ candidateValues d descriptor.node name
  · simp [hvalue]
  · simp [hvalue, @eq_comm _ e]

/-- A choice is accepted for an allowed attribute with a value that the node offers; it changes the values stored
under the name in lower case. -/
theorem descriptor_setIncluded_eq_ok_iff {descriptor refined : Descriptor} {d : Document} {config : Config}
    {name value : String} {included : Bool} :
    descriptor.setIncluded d config name value included = .ok refined ↔
      config.allows (Text.lower name) = true ∧ d.hasAttribute descriptor.node (Text.lower name) = true ∧
        value ∈ candidateValues d descriptor.node (Text.lower name) ∧
        refined = ⟨descriptor.node, (if included then AttributeValues.add else AttributeValues.remove)
          (Text.lower name) value descriptor.attributes⟩ := by
  rw [Descriptor.setIncluded]
  generalize Text.lower name = name
  cases config.allows name
  · simp
  cases d.hasAttribute descriptor.node name
  · simp
  by_cases hvalue : value ∈ candidateValues d descriptor.node name
  · simp [hvalue, eq_comm]
  · simp [hvalue]

/-- An inclusion that succeeds is of an allowed attribute and of one of its candidates, keeps the node, and adds or
removes the value. -/
theorem descriptor_setIncluded_eq_ok {descriptor refined : Descriptor} {d : Document} {config : Config}
    {name value : String} {included : Bool}
    (hset : descriptor.setIncluded d config name value included = .ok refined) :
    config.allows (Text.lower name) = true ∧
      value ∈ candidateValues d descriptor.node (Text.lower name) ∧
      refined.node = descriptor.node ∧
      refined.attributes = (if included then AttributeValues.add else AttributeValues.remove) (Text.lower name)
        value descriptor.attributes := by
  obtain ⟨hallowed, -, hvalue, rfl⟩ := descriptor_setIncluded_eq_ok_iff.1 hset
  exact ⟨hallowed, hvalue, rfl, rfl⟩

/-- A toggle comes to what the inclusion does, and answers whether that changes anything. -/
theorem descriptor_toggle_eq_ok_iff {descriptor refined : Descriptor} {d : Document} {config : Config}
    {name value : String} {included changed : Bool} :
    descriptor.toggle d config name value included = .ok (changed, refined) ↔
      descriptor.setIncluded d config name value included = .ok refined ∧
        changed = descriptor.attributes.changes (Text.lower name) value included := by
  rw [Descriptor.toggle]
  cases descriptor.setIncluded d config name value included with
  | error e => simp [bind, Except.bind]
  | ok refined' => simp [bind, Except.bind, and_comm, eq_comm]

/-- An inclusion in the registry is one in the descriptor of the handle. -/
theorem setIncluded_eq_some {d : Document} {config : Config} {name value : String} {included changed : Bool}
    {r' : Registry} (hset : r.setIncluded h d config name value included = .ok (some (changed, r'))) :
    ∃ descriptor refined, r.get? h = some descriptor ∧
      descriptor.setIncluded d config name value included = .ok refined ∧ r' = r.set h refined := by
  unfold setIncluded at hset
  cases hget : r.get? h with
  | none => simp [hget] at hset
  | some descriptor =>
    cases htoggle : descriptor.toggle d config name value included with
    | error e => simp [hget, htoggle, bind, Except.bind] at hset
    | ok result =>
      obtain ⟨changed', refined⟩ := result
      simp only [hget, htoggle, bind, Except.bind, Except.ok.injEq, Option.some.injEq, Prod.mk.injEq] at hset
      exact ⟨descriptor, refined, rfl, (descriptor_toggle_eq_ok_iff.1 htoggle).1, hset.2.symm⟩

/-- A descriptor of the same node leaves every node at its place. -/
theorem nodes_set {descriptor refined : Descriptor} (hget : r.get? h = some descriptor)
    (hnode : refined.node = descriptor.node) : (r.set h refined).nodes = r.nodes := by
  rw [nodes, set, List.map_set, hnode, nodes]
  refine List.ext_getElem? fun i => ?_
  rw [List.getElem?_set]
  split
  · next heq =>
    rw [← heq, List.getElem?_map, show r.descriptors[h]? = some descriptor from hget]
    have hlt : h < r.descriptors.length := (List.getElem?_eq_some_iff.1 hget).1
    simp [hlt]
  · rfl

/-- Setting a descriptor of the same node keeps the registry indexed. -/
theorem Indexed.set {descriptor refined : Descriptor} (hr : r.Indexed) (hget : r.get? h = some descriptor)
    (hnode : refined.node = descriptor.node) : (r.set h refined).Indexed := by
  rw [Indexed, nodes_set hget hnode, ← hr]
  rfl

end ElementLocator.Locator.Registry
