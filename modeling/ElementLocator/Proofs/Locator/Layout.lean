import ElementLocator.Proofs.Locator.Run

/-!
# The layout of the registry

The picks alone determine which node has which handle. The nodes of the main chain come first, the picked node
before its ancestors, and the nodes that only the relative chain has follow in the same order. Cutting the registry
to the length of the main chain is therefore the same as forgetting the relative pick.
-/

namespace ElementLocator.Locator

namespace Picks

variable {d : Document} {picks : Picks} {n : NodeId}

/-- The chain of the picked node of a scope, the picked node first. -/
def chain (d : Document) (picks : Picks) (scope : Scope) : List NodeId :=
  match picks.of scope with
  | none => []
  | some n => d.chainBelowTop n

/-- The nodes that only the relative chain has, the picked node first. -/
def ownNodes (d : Document) (picks : Picks) : List NodeId :=
  (picks.chain d .relative).takeWhile fun m => !decide (m ∈ picks.chain d .main)

/-- The first node of the relative chain that the main chain has too. -/
def sharedNode? (d : Document) (picks : Picks) : Option NodeId :=
  (picks.chain d .relative).find? fun m => decide (m ∈ picks.chain d .main)

/-- The picked nodes can be picked. -/
def Valid (d : Document) (picks : Picks) : Prop :=
  ∀ scope n, picks.of scope = some n → validatePick d n = .ok ()

/-- No node is twice on a chain. -/
theorem chain_nodup (h : d.Sound) (picks : Picks) (scope : Scope) : (picks.chain d scope).Nodup := by
  unfold chain
  split
  · exact List.nodup_nil
  · exact h.chainBelowTop_nodup _

/-- Along a chain, each node has the next one as its parent element. -/
theorem chain_isChain (h : d.Sound) (picks : Picks) (scope : Scope) :
    (picks.chain d scope).IsChain fun child p => d.parentElement? child = some p := by
  unfold chain
  split
  · exact List.IsChain.nil
  · exact h.chainBelowTop_isChain _

/-- A chain starts at the picked node. -/
theorem head?_chain (hvalid : picks.Valid d) (scope : Scope) : (picks.chain d scope).head? = picks.of scope := by
  unfold chain
  cases hn : picks.of scope with
  | none => rfl
  | some n => exact Document.Sound.head?_chainBelowTop (validatePick_eq_ok.1 (hvalid scope n hn)).2.1

/-- A chain ends at a node whose parent element is the document element, or that has none. -/
theorem parentElement?_of_getLast?_chain (h : d.Sound) {scope : Scope}
    (hn : (picks.chain d scope).getLast? = some n) :
    d.parentElement? n = none ∨ d.parentElement? n = d.documentElement? := by
  unfold chain at hn
  split at hn
  · cases hn
  · exact h.parentElement?_of_getLast? hn

/-- What the relative chain has for itself and the node it shares are the front of that chain. -/
theorem own_append_shared_isPrefix (d : Document) (picks : Picks) :
    picks.ownNodes d ++ (picks.sharedNode? d).toList <+: picks.chain d .relative :=
  takeWhile_append_find?_isPrefix _ _

/-- The main path and the branch have no node in common. -/
theorem ownNodes_disjoint (d : Document) (picks : Picks) : (picks.chain d .main).Disjoint (picks.ownNodes d) := by
  intro m hmain hown
  have hnot := List.mem_takeWhile_imp hown
  simp [hmain] at hnot

/-- The shared node is on the main chain. -/
theorem sharedNode?_mem (hn : picks.sharedNode? d = some n) : n ∈ picks.chain d .main := by
  simpa using List.find?_some hn

end Picks

/-- The registry, the chain and the branch are the ones that the picks determine. -/
structure Layout (d : Document) (l : Locator) (picks : Picks) : Prop where
  document : l.document = d
  valid : picks.Valid d
  indexed : l.registry.Indexed
  nodes : l.registry.nodes = picks.chain d .main ++ picks.ownNodes d
  main : l.main = (List.range (picks.chain d .main).length).reverse
  branch : l.branch = picks.relative.map fun _ =>
    ⟨(picks.sharedNode? d).map (picks.chain d .main).idxOf,
      (List.range' (picks.chain d .main).length (picks.ownNodes d).length).reverse⟩

/-! ### The layout is kept -/

/-- A valid node is a valid main pick. -/
theorem Picks.valid_main {d : Document} (hn : validatePick d n = .ok ()) : Picks.Valid d { main := some n } := by
  intro scope m hm
  cases scope with
  | main =>
    cases hm
    exact hn
  | relative => cases hm

/-- A valid node is a valid relative pick. -/
theorem Picks.Valid.relative {d : Document} {picks : Picks} (h : picks.Valid d) (hn : validatePick d n = .ok ()) :
    Picks.Valid d { picks with relative := some n } := by
  intro scope m hm
  cases scope with
  | main => exact h .main m hm
  | relative =>
    cases hm
    exact hn

/-- Cutting the registry to the main chain leaves exactly the nodes of that chain. -/
theorem Layout.nodes_truncate {d : Document} {l : Locator} {picks : Picks} (h : Layout d l picks) :
    (l.registry.truncate l.main.length).nodes = picks.chain d .main := by
  rw [Registry.nodes_truncate, h.nodes, h.main, List.length_reverse, List.length_range, List.take_left']
  rfl

/-- Operations keep the layout. -/
theorem Layout.effect {d : Document} (hd : d.Sound) {l l' : Locator} {picks picks' : Picks} {op : Operation}
    (h : Layout d l picks) (heffect : Effect l picks op l' picks') : Layout d l' picks' := by
  cases heffect with
  | refused => exact h
  | rewritten grammar => exact ⟨h.document, h.valid, h.indexed, h.nodes, h.main, h.branch⟩
  | refined hget hset =>
    obtain ⟨-, -, hnode, -⟩ := Registry.descriptor_setIncluded_eq_ok hset
    exact ⟨h.document, h.valid, h.indexed.set hget hnode, (Registry.nodes_set hget hnode).trans h.nodes, h.main,
      h.branch⟩
  | @pickedMain n hn =>
    rw [h.document] at hn ⊢
    rw [Registry.insertChain_empty hd]
    have hown : Picks.ownNodes d { main := some n } = [] := rfl
    refine ⟨rfl, Picks.valid_main hn, Registry.indexed_empty.extend _, ?_, rfl, rfl⟩
    rw [hown, List.append_nil]
    exact Registry.nodes_extend {} _
  | @pickedRelative n hn =>
    rw [h.document] at hn ⊢
    have hkept := h.nodes_truncate
    have hsize : (l.registry.truncate l.main.length).size = (picks.chain d .main).length := by
      rw [← Registry.length_nodes, hkept]
    have hmain : l.main = (List.range (l.registry.truncate l.main.length).size).reverse := by
      rw [hsize]
      exact h.main
    have hindexed := h.indexed.truncate l.main.length
    generalize l.registry.truncate l.main.length = kept at hkept hsize hmain hindexed ⊢
    rw [hmain, Registry.insertBranch_range hd hindexed, hkept, hsize]
    refine ⟨rfl, h.valid.relative hn, hindexed.extend _, ?_, rfl, rfl⟩
    rw [Registry.nodes_extend, hkept]
    rfl

/-- Every run leads to the layout of its picks. -/
theorem layout_run {d : Document} (hd : d.Sound) (config : Config) (ops : List Operation) :
    Layout d ((start d config).run ops) (Picks.ofRun d ops) := by
  refine run_induction (P := Layout d) ops ?_ fun l picks op l' picks' _ _ _ h heffect => h.effect hd heffect
  refine ⟨rfl, ?_, Registry.indexed_empty, rfl, rfl, rfl⟩
  intro scope n hn
  cases scope <;> cases hn

/-! ### Reading a layout -/

/-- The handles of a scope from the top to the picked node, with the one of the common ancestor. -/
def path (l : Locator) : Scope → List Handle
  | .main => l.main
  | .relative => (l.branch.map Branch.handles).getD []

/-- The relative path is the shared handle, if there is one, and then the branch. -/
theorem path_relative (l : Locator) :
    l.path .relative = (l.branch.bind Branch.shared).toList ++ l.handles .relative := by
  rw [path, handles]
  cases l.branch <;> rfl

/-- The nodes with the given handles. -/
def nodesOf (l : Locator) (handles : List Handle) : List NodeId := handles.filterMap l.registry.node?

/-- The nodes of handles are looked up in the list of registered nodes. -/
theorem nodesOf_eq (l : Locator) (handles : List Handle) :
    l.nodesOf handles = handles.filterMap fun i => l.registry.nodes[i]? := by
  rw [nodesOf]
  exact congrArg (handles.filterMap ·) (funext l.registry.node?_eq)

/-- The places in a row from `s` on hold what is left of the list behind its first `s` elements. -/
theorem filterMap_getElem?_range' {α : Type} (l : List α) (s k : Nat) :
    (List.range' s k).filterMap (fun i => l[i]?) = (l.drop s).take k := by
  induction k generalizing s with
  | zero => simp
  | succ k ih =>
    rw [List.range'_succ, List.filterMap_cons, ih]
    cases hs : l[s]? with
    | none =>
      have hlen : l.length ≤ s := List.getElem?_eq_none_iff.1 hs
      rw [List.drop_eq_nil_of_le hlen, List.drop_eq_nil_of_le (Nat.le_succ_of_le hlen)]
      simp
    | some a =>
      obtain ⟨hlt, rfl⟩ := List.getElem?_eq_some_iff.1 hs
      rw [List.drop_eq_getElem_cons hlt, List.take_succ_cons]

/-- Where nothing is left out, places are kept. -/
theorem getElem?_filterMap_of_isSome {α β : Type} {f : α → Option β} {as : List α}
    (hf : ∀ a ∈ as, (f a).isSome) (k : Nat) : (as.filterMap f)[k]? = as[k]?.bind f := by
  induction as generalizing k with
  | nil => rfl
  | cons a rest ih =>
    obtain ⟨b, hb⟩ := Option.isSome_iff_exists.1 (hf a List.mem_cons_self)
    rw [List.filterMap_cons_some hb]
    cases k with
    | zero => exact hb.symm
    | succ k => exact ih (fun a ha => hf a (List.mem_cons_of_mem _ ha)) k

namespace Layout

variable {d : Document} {l : Locator} {picks : Picks}

/-- The nodes of the main path are the main chain from the top down. -/
theorem nodesOf_main (h : Layout d l picks) : l.nodesOf l.main = (picks.chain d .main).reverse := by
  rw [nodesOf_eq, h.main, List.filterMap_reverse, List.range_eq_range', filterMap_getElem?_range', h.nodes,
    List.drop_zero, List.take_left']
  rfl

/-- The handles of the branch follow those of the main chain, counting from the top down. -/
theorem handles_relative (h : Layout d l picks) :
    l.handles .relative = (List.range' (picks.chain d .main).length (picks.ownNodes d).length).reverse := by
  rw [handles, h.branch]
  cases hr : picks.relative with
  | none => simp [Picks.ownNodes, Picks.chain, Picks.of, hr]
  | some n => rfl

/-- The nodes of the branch are its own nodes from the top down. -/
theorem nodesOf_relative (h : Layout d l picks) :
    l.nodesOf (l.handles .relative) = (picks.ownNodes d).reverse := by
  rw [nodesOf_eq, h.handles_relative, List.filterMap_reverse, filterMap_getElem?_range', h.nodes, List.drop_left',
    List.take_length]
  rfl

/-- The node of the shared handle is the first node of the relative chain that the main chain has too. -/
theorem shared_eq (h : Layout d l picks) :
    l.branch.bind Branch.shared = (picks.sharedNode? d).map (picks.chain d .main).idxOf := by
  rw [h.branch]
  cases hr : picks.relative with
  | none => simp [Picks.sharedNode?, Picks.chain, Picks.of, hr]
  | some n => rfl

/-- The anchor is the shared node. -/
theorem anchor?_eq (h : Layout d l picks) : l.anchor? = picks.sharedNode? d := by
  rw [anchor?, h.shared_eq]
  cases hs : picks.sharedNode? d with
  | none => rfl
  | some a =>
    have hmem := Picks.sharedNode?_mem hs
    rw [Option.map_some, Option.bind_some, Registry.node?_eq, h.nodes,
      List.getElem?_append_left (List.idxOf_lt_length_iff.2 hmem)]
    exact List.getElem?_idxOf hmem

/-- The nodes of the relative path are the own nodes of the branch below the shared one. -/
theorem nodesOf_path_relative (h : Layout d l picks) :
    l.nodesOf (l.path .relative) = (picks.ownNodes d ++ (picks.sharedNode? d).toList).reverse := by
  have hshared : l.nodesOf (l.branch.bind Branch.shared).toList = (picks.sharedNode? d).toList := by
    rw [← h.anchor?_eq, nodesOf, anchor?]
    cases hs : l.branch.bind Branch.shared with
    | none => rfl
    | some s => cases hn : l.registry.node? s <;> simp [hn]
  rw [path_relative, nodesOf, List.filterMap_append, ← nodesOf, ← nodesOf, hshared, h.nodesOf_relative,
    List.reverse_append]
  cases picks.sharedNode? d <;> rfl

/-- Exactly the handles below the length of the main chain are on it. -/
theorem mem_main_iff (h : Layout d l picks) {i : Handle} : i ∈ l.main ↔ i < l.main.length := by
  rw [h.main, List.mem_reverse, List.mem_range, List.length_reverse, List.length_range]

/-- The registry holds the handles of the main path and of the branch and no others. -/
theorem size_eq (h : Layout d l picks) : l.registry.size = l.main.length + (l.handles .relative).length := by
  rw [← Registry.length_nodes, h.nodes, h.main, h.handles_relative]
  simp

/-- A handle of the branch is not below the length of the main chain. -/
theorem le_of_mem_relative (h : Layout d l picks) {i : Handle} (hi : i ∈ l.handles .relative) :
    l.main.length ≤ i ∧ i < l.registry.size := by
  rw [h.size_eq]
  rw [h.handles_relative, List.mem_reverse, List.mem_range'_1] at hi
  rw [h.main, h.handles_relative]
  simpa using hi

/-- The shared handle is one of the main path. -/
theorem shared_mem_main (h : Layout d l picks) {i : Handle} (hi : l.branch.bind Branch.shared = some i) :
    i ∈ l.main := by
  rw [h.shared_eq, Option.map_eq_some_iff] at hi
  obtain ⟨a, ha, rfl⟩ := hi
  rw [h.main, List.mem_reverse, List.mem_range]
  exact List.idxOf_lt_length_iff.2 (Picks.sharedNode?_mem ha)

/-- Every handle of either path stands for a node. -/
theorem exists_node (h : Layout d l picks) {scope : Scope} {i : Handle} (hi : i ∈ l.path scope) :
    ∃ n, l.registry.node? i = some n := by
  have hle : l.main.length ≤ l.registry.size := h.size_eq ▸ Nat.le_add_right _ _
  have hlt : i < l.registry.nodes.length := by
    rw [Registry.length_nodes]
    cases scope with
    | main => exact Nat.lt_of_lt_of_le (h.mem_main_iff.1 hi) hle
    | relative =>
      rw [path_relative, List.mem_append, Option.mem_toList] at hi
      rcases hi with hi | hi
      · exact Nat.lt_of_lt_of_le (h.mem_main_iff.1 (h.shared_mem_main hi)) hle
      · exact (h.le_of_mem_relative hi).2
  exact ⟨_, (Registry.node?_eq _ i).trans (List.getElem?_eq_getElem hlt)⟩

/-- The leaf of a path is its last node. -/
theorem leaf?_eq_getLast? (h : Layout d l picks) (scope : Scope) :
    l.leaf? scope = (l.nodesOf (l.path scope)).getLast? := by
  have hleaf : l.leaf? scope = (l.path scope).getLast?.bind l.registry.node? := by
    cases scope with
    | main => rfl
    | relative => rw [leaf?, path]; cases l.branch <;> rfl
  rw [hleaf]
  rcases List.eq_nil_or_concat (l.path scope) with hnil | ⟨front, i, hfront⟩
  · rw [hnil]
    rfl
  · obtain ⟨n, hn⟩ := h.exists_node (show i ∈ l.path scope by simp [hfront])
    rw [hfront, List.concat_eq_append, nodesOf, List.filterMap_append]
    simp [hn]

/-- The leaf of a scope is the picked node. -/
theorem leaf?_eq (h : Layout d l picks) (scope : Scope) : l.leaf? scope = picks.of scope := by
  rw [h.leaf?_eq_getLast?, ← Picks.head?_chain h.valid]
  cases scope with
  | main => rw [path, h.nodesOf_main, List.getLast?_reverse]
  | relative =>
    rw [h.nodesOf_path_relative, List.getLast?_reverse]
    exact head?_takeWhile_append_find? _ _

/-- No handle is twice on a path. -/
theorem handles_nodup (h : Layout d l picks) (scope : Scope) : (l.handles scope).Nodup := by
  cases scope with
  | main =>
    rw [handles, h.main, List.nodup_reverse]
    exact List.nodup_range
  | relative =>
    rw [h.handles_relative, List.nodup_reverse]
    exact List.nodup_range'

/-- A handle belongs to one scope only. -/
theorem scope_eq (h : Layout d l picks) {scope scope' : Scope} {i : Handle} (hi : i ∈ l.handles scope)
    (hi' : i ∈ l.handles scope') : scope = scope' := by
  have happart : i ∈ l.handles .main → i ∈ l.handles .relative → False := fun hmain hrelative =>
    Nat.not_lt.2 (h.le_of_mem_relative hrelative).1 (h.mem_main_iff.1 hmain)
  cases scope <;> cases scope'
  · rfl
  · exact (happart hi hi').elim
  · exact (happart hi' hi).elim
  · rfl

/-- The shared handle is one of the main scope. -/
theorem shared_mem_handles (h : Layout d l picks) {i : Handle} (hi : l.branch.bind Branch.shared = some i) :
    i ∈ l.handles .main := h.shared_mem_main hi

/-- The handles of the entries stand for nodes. -/
theorem exists_node_of_mem_handles (h : Layout d l picks) {scope : Scope} {i : Handle} (hi : i ∈ l.handles scope) :
    ∃ n, l.registry.node? i = some n := by
  refine h.exists_node (show i ∈ l.path scope from ?_)
  cases scope with
  | main => exact hi
  | relative => exact l.path_relative ▸ List.mem_append_right _ hi

end Layout

end ElementLocator.Locator
