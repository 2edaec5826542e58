import ElementLocator.Proofs.Locator.Anchor
import ElementLocator.Proofs.Locator.Trail

/-!
# The tree of both chains

The depths in the tree are places in lists, and the branch starts at the place of the shared handle. They agree with the
document all the same: the depth of an entry counts the elements above its node, and the nearest line before an entry
that is set in by one level less is the one of the node's parent.
-/

namespace ElementLocator

/-- No chain holds the document element. -/
theorem Document.documentElement?_ne_of_mem_chainBelowTop {d : Document} {n p : NodeId} (hp : p ∈ d.chainBelowTop n) :
    d.documentElement? ≠ some p := by
  simpa using List.mem_takeWhile_imp hp

namespace Locator

variable {d : Document} {l : Locator} {picks : Picks} {scope : Scope} {r : Registry} {common : Option Nat}
  {handles : List Handle} {i : Handle} {n p : NodeId} {j m : Nat} {e : TreeEntry}

/-! ### The entries -/

/-- What the tree shows of an entry, its depth and its mark aside. -/
def TreeEntry.shown (e : TreeEntry) : Scope × Handle × NodeId × String := (e.scope, e.handle, e.node, e.tag)

/-- What a listing shows of an entry, its values aside. -/
def Entry.shown (scope : Scope) (e : Entry) : Scope × Handle × NodeId × String := (scope, e.handle, e.node, e.tag)

/-- The entries stand at the places of their handles, each one deeper by one than the one before. -/
theorem getElem?_treeEntries (hresolves : ∀ i ∈ handles, ∃ n, r.node? i = some n) (depth j : Nat) :
    (treeEntries d r scope common depth handles)[j]? = handles[j]?.bind fun i => (r.node? i).map fun n =>
      ⟨i, n, (d.tagName? n).getD "", depth + j, scope, common == some (depth + j)⟩ := by
  induction handles generalizing depth j with
  | nil => rfl
  | cons i rest ih =>
    obtain ⟨n, hn⟩ := hresolves i List.mem_cons_self
    rw [treeEntries, hn]
    cases j with
    | zero => simp [hn]
    | succ j =>
      rw [List.getElem?_cons_succ, List.getElem?_cons_succ, ih fun k hk => hresolves k (List.mem_cons_of_mem i hk),
        Nat.succ_add_eq_add_succ]

/-- The entries are for the handles in their order. -/
theorem map_handle_treeEntries (hresolves : ∀ i ∈ handles, ∃ n, r.node? i = some n) (depth : Nat) :
    (treeEntries d r scope common depth handles).map TreeEntry.handle = handles := by
  induction handles generalizing depth with
  | nil => rfl
  | cons i rest ih =>
    obtain ⟨n, hn⟩ := hresolves i List.mem_cons_self
    rw [treeEntries, hn, List.map_cons, ih fun k hk => hresolves k (List.mem_cons_of_mem i hk)]

/-- There are as many entries as handles. -/
theorem length_treeEntries (hresolves : ∀ i ∈ handles, ∃ n, r.node? i = some n) (depth : Nat) :
    (treeEntries d r scope common depth handles).length = handles.length := by
  simpa using congrArg List.length (map_handle_treeEntries hresolves depth)

/-- The entries show each handle with its node and the tag of that. -/
theorem map_shown_treeEntries (depth : Nat) :
    (treeEntries d r scope common depth handles).map TreeEntry.shown =
      handles.filterMap fun i => (r.node? i).map fun n => (scope, i, n, (d.tagName? n).getD "") := by
  induction handles generalizing depth with
  | nil => rfl
  | cons i rest ih =>
    rw [treeEntries]
    cases hn : r.node? i with
    | none => simp [hn, ih]
    | some n => simp [hn, ih, TreeEntry.shown]

/-- The place of the common ancestor in the main chain. -/
def commonPlace? (l : Locator) : Option Nat :=
  (l.branch.bind Branch.shared).bind fun h => l.main.findIdx? (· == h)

/-- The depth of the first entry of the branch. -/
def branchDepth (l : Locator) : Nat :=
  match l.commonPlace? with
  | some place => place + 1
  | none => 0

/-- The tree is the main chain from depth 0 and then the branch from its own depth. -/
theorem tree_eq (l : Locator) :
    l.tree = treeEntries l.document l.registry .main l.commonPlace? 0 (l.handles .main) ++
      treeEntries l.document l.registry .relative none l.branchDepth (l.handles .relative) := rfl

/-- The tree shows the entries of the main path and then those of the branch. -/
theorem map_shown_tree (l : Locator) :
    l.tree.map TreeEntry.shown =
      (l.entries .main).map (Entry.shown .main) ++ (l.entries .relative).map (Entry.shown .relative) := by
  have hentries : ∀ scope, (l.entries scope).map (Entry.shown scope) =
      (l.handles scope).filterMap fun i =>
        (l.registry.node? i).map fun n => (scope, i, n, (l.document.tagName? n).getD "") := by
    intro scope
    rw [entries, List.map_filterMap]
    refine congrArg (List.filterMap · _) (funext fun i => ?_)
    rw [Registry.node?, Option.map_map, Option.map_map]
    rfl
  rw [tree_eq, List.map_append, map_shown_treeEntries, map_shown_treeEntries, hentries, hentries]

/-- The line for an entry of the main chain. -/
def mainLine (l : Locator) (j : Nat) (i : Handle) (n : NodeId) : TreeEntry :=
  ⟨i, n, (l.document.tagName? n).getD "", j, .main, l.commonPlace? == some j⟩

/-- The line for an entry of the branch. -/
def branchLine (l : Locator) (m : Nat) (i : Handle) (n : NodeId) : TreeEntry :=
  ⟨i, n, (l.document.tagName? n).getD "", l.branchDepth + m, .relative, false⟩

namespace Layout

/-- The line of an entry of the main chain stands at its place. -/
theorem getElem?_tree_main (h : Layout d l picks) (hi : (l.handles .main)[j]? = some i)
    (hn : l.registry.node? i = some n) : l.tree[j]? = some (l.mainLine j i n) := by
  have hmain : ∀ i ∈ l.handles .main, ∃ n, l.registry.node? i = some n := fun _ => h.exists_node_of_mem_handles
  have hlt : j < (l.handles .main).length := (List.getElem?_eq_some_iff.1 hi).1
  rw [tree_eq, List.getElem?_append_left (by rwa [length_treeEntries hmain]),
    getElem?_treeEntries hmain, hi, Option.bind_some, hn, Nat.zero_add]
  rfl

/-- The line of an entry of the branch stands behind all lines of the main chain. -/
theorem getElem?_tree_branch (h : Layout d l picks) (hi : (l.handles .relative)[m]? = some i)
    (hn : l.registry.node? i = some n) : l.tree[(l.handles .main).length + m]? = some (l.branchLine m i n) := by
  have hmain : ∀ i ∈ l.handles .main, ∃ n, l.registry.node? i = some n := fun _ => h.exists_node_of_mem_handles
  have hlength : (l.handles .main).length =
      (treeEntries l.document l.registry .main l.commonPlace? 0 (l.handles .main)).length :=
    (length_treeEntries hmain 0).symm
  rw [tree_eq, hlength, List.getElem?_append_right (Nat.le_add_right _ _), Nat.add_sub_cancel_left,
    getElem?_treeEntries fun _ => h.exists_node_of_mem_handles, hi, Option.bind_some, hn]
  rfl

/-- Each line is for an entry of the main chain or for one of the branch. -/
theorem tree_cases (h : Layout d l picks) (he : l.tree[j]? = some e) :
    (∃ i n, (l.handles .main)[j]? = some i ∧ l.registry.node? i = some n ∧ e = l.mainLine j i n) ∨
      ∃ m i n, j = (l.handles .main).length + m ∧ (l.handles .relative)[m]? = some i ∧ l.registry.node? i = some n ∧
        e = l.branchLine m i n := by
  rcases Nat.lt_or_ge j (l.handles .main).length with hlt | hge
  · obtain ⟨n, hn⟩ := h.exists_node_of_mem_handles (List.getElem_mem hlt)
    have hi := List.getElem?_eq_getElem hlt
    rw [h.getElem?_tree_main hi hn] at he
    exact .inl ⟨_, n, hi, hn, (Option.some.inj he).symm⟩
  · obtain ⟨m, rfl⟩ := Nat.exists_eq_add_of_le hge
    have hlength : l.tree.length = (l.handles .main).length + (l.handles .relative).length := by
      rw [tree_eq, List.length_append, length_treeEntries fun _ => h.exists_node_of_mem_handles,
        length_treeEntries fun _ => h.exists_node_of_mem_handles]
    have hm : m < (l.handles .relative).length := by
      have := (List.getElem?_eq_some_iff.1 he).1
      omega
    obtain ⟨n, hn⟩ := h.exists_node_of_mem_handles (List.getElem_mem hm)
    have hi := List.getElem?_eq_getElem hm
    rw [h.getElem?_tree_branch hi hn] at he
    exact .inr ⟨m, _, n, rfl, hi, hn, (Option.some.inj he).symm⟩

/-- A line shows the node of its handle. -/
theorem node?_of_line (h : Layout d l picks) (he : l.tree[j]? = some e) : l.registry.node? e.handle = some e.node := by
  rcases h.tree_cases he with ⟨i, n, -, hn, rfl⟩ | ⟨m, i, n, -, -, hn, rfl⟩
  · exact hn
  · exact hn

/-- The lines are for the main handles and then for those of the branch. -/
theorem map_handle_tree (h : Layout d l picks) :
    l.tree.map TreeEntry.handle = l.handles .main ++ l.handles .relative := by
  rw [tree_eq, List.map_append, map_handle_treeEntries fun _ => h.exists_node_of_mem_handles,
    map_handle_treeEntries fun _ => h.exists_node_of_mem_handles]

/-- No handle has two lines. -/
theorem nodup_handles_tree (h : Layout d l picks) : (l.tree.map TreeEntry.handle).Nodup := by
  rw [h.map_handle_tree]
  refine (h.handles_nodup .main).append (h.handles_nodup .relative) fun i hmain hrelative => ?_
  cases h.scope_eq hmain hrelative

/-- No node has two lines. -/
theorem nodup_nodes_tree (h : Layout d l picks) (hd : d.Sound) : (l.tree.map TreeEntry.node).Nodup := by
  have hnodes : l.tree.map TreeEntry.node = l.nodesOf (l.handles .main ++ l.handles .relative) := by
    rw [← h.map_handle_tree, nodesOf, List.filterMap_map]
    refine (List.filterMap_eq_map (f := TreeEntry.node) ▸ List.filterMap_congr fun e he => ?_)
    obtain ⟨j, hj⟩ := List.mem_iff_getElem?.1 he
    exact (h.node?_of_line hj).symm
  have hmain : (l.nodesOf (l.handles .main)).Nodup := h.distinct hd .main
  have hrelative : (l.nodesOf (l.handles .relative)).Nodup :=
    (h.distinct hd .relative).sublist (nodesOf_relative_isSuffix l).sublist
  rw [hnodes, nodesOf, List.filterMap_append]
  exact hmain.append hrelative (h.coherent hd).nodes_disjoint

/-! ### Depths -/

/-- The common ancestor is at the place of the shared handle. No earlier place has this handle, as none occurs twice. -/
theorem commonPlace?_eq_some_iff (h : Layout d l picks) :
    l.commonPlace? = some j ↔ ∃ i, l.branch.bind Branch.shared = some i ∧ (l.handles .main)[j]? = some i := by
  rw [commonPlace?, Option.bind_eq_some_iff]
  refine exists_congr fun i => and_congr_right fun _ => ?_
  rw [List.findIdx?_eq_some_iff_getElem, List.getElem?_eq_some_iff]
  refine exists_congr fun hj => ?_
  rw [beq_iff_eq]
  refine and_iff_left_of_imp fun hi k hk heq => ?_
  have hboth : l.main[k]? = l.main[j]? := by
    rw [List.getElem?_eq_getElem (hk.trans hj), List.getElem?_eq_getElem hj, beq_iff_eq.1 heq]
    exact congrArg some hi.symm
  exact absurd ((List.getElem?_inj (hk.trans hj) (h.handles_nodup .main)).1 hboth) hk.ne

/-- The branch starts at depth 0 if nothing is shared, and one below the shared entry otherwise. -/
theorem branchDepth_cases (h : Layout d l picks) :
    l.branch.bind Branch.shared = none ∧ l.branchDepth = 0 ∨
      ∃ j i, l.branch.bind Branch.shared = some i ∧ (l.handles .main)[j]? = some i ∧ l.branchDepth = j + 1 := by
  cases hplace : l.commonPlace? with
  | none =>
    refine .inl ⟨Option.eq_none_iff_forall_ne_some.2 fun i hi => ?_, by rw [branchDepth, hplace]⟩
    obtain ⟨j, hj⟩ := List.mem_iff_getElem?.1 (h.shared_mem_handles hi)
    rw [h.commonPlace?_eq_some_iff.2 ⟨i, hi, hj⟩] at hplace
    cases hplace
  | some j =>
    obtain ⟨i, hi, hj⟩ := h.commonPlace?_eq_some_iff.1 hplace
    exact .inr ⟨j, i, hi, hj, by rw [branchDepth, hplace]⟩

/-- The node of a handle is at the place of the handle. -/
theorem getElem?_nodesOf (h : Layout d l picks) (hi : (l.handles scope)[j]? = some i)
    (hn : l.registry.node? i = some n) : (l.nodesOf (l.handles scope))[j]? = some n := by
  have hresolves : ∀ i ∈ l.handles scope, (l.registry.node? i).isSome := fun i hi =>
    Option.isSome_iff_exists.2 (h.exists_node_of_mem_handles hi)
  rw [nodesOf, getElem?_filterMap_of_isSome hresolves, hi, Option.bind_some, hn]

/-- In each scope, each node is the parent element of the next. -/
theorem linked_handles (h : Layout d l picks) (hd : d.Sound) (scope : Scope) :
    (l.nodesOf (l.handles scope)).IsChain fun p n => d.parentElement? n = some p := by
  cases scope with
  | main => exact h.linked hd .main
  | relative => exact (h.linked hd .relative).suffix (nodesOf_relative_isSuffix l)

/-- The node of an entry is the parent of the node of the next one. -/
theorem parentElement?_of_next (h : Layout d l picks) (hd : d.Sound) {i' : Handle} {p : NodeId}
    (hi : (l.handles scope)[j]? = some i) (hp : l.registry.node? i = some p)
    (hi' : (l.handles scope)[j + 1]? = some i') (hn : l.registry.node? i' = some n) : d.parentElement? n = some p := by
  have hlinked := h.linked_handles hd scope
  obtain ⟨_, hp⟩ := List.getElem?_eq_some_iff.1 (h.getElem?_nodesOf hi hp)
  obtain ⟨hlt, hn⟩ := List.getElem?_eq_some_iff.1 (h.getElem?_nodesOf hi' hn)
  rw [← hp, ← hn]
  exact List.isChain_iff_getElem.1 hlinked j hlt

/-- The parent element of the first node of the branch is the shared node. -/
theorem parentElement?_of_first (h : Layout d l picks) (hd : d.Sound) {a : NodeId}
    (hshared : l.branch.bind Branch.shared = some i) (ha : l.registry.node? i = some a) {i' : Handle}
    (hi' : (l.handles .relative)[0]? = some i') (hn : l.registry.node? i' = some n) : d.parentElement? n = some a := by
  obtain ⟨a', ha', hbelow⟩ := h.shared hd hshared
  obtain rfl : a = a' := Option.some.inj (ha.symm.trans ha')
  have hfirst := h.getElem?_nodesOf hi' hn
  cases hnodes : l.nodesOf (l.handles .relative) with
  | nil =>
    rw [hnodes] at hfirst
    cases hfirst
  | cons m rest =>
    rw [hnodes] at hfirst hbelow
    cases hfirst
    exact hbelow

/-- An entry that is set in stands below its parent, which is set in by one level less, and no line in between is set in
by less than the entry. The first entry of the branch stands below the common ancestor, with the rest of the main chain
in between. -/
theorem exists_parent_line (h : Layout d l picks) (hd : d.Sound) (he : l.tree[j]? = some e) (hdepth : 0 < e.depth) :
    ∃ k p, k < j ∧ l.tree[k]? = some p ∧ d.parentElement? e.node = some p.node ∧ p.depth + 1 = e.depth ∧
      ∀ b x, k < b → b < j → l.tree[b]? = some x → e.depth ≤ x.depth := by
  rcases h.tree_cases he with ⟨i, n, hi, hn, rfl⟩ | ⟨m, i, n, rfl, hi, hn, rfl⟩
  · obtain ⟨k, rfl⟩ := Nat.exists_eq_succ_of_ne_zero hdepth.ne'
    have hlt : k < (l.handles .main).length := k.lt_succ_self.trans (List.getElem?_eq_some_iff.1 hi).1
    obtain ⟨p, hp⟩ := h.exists_node_of_mem_handles (List.getElem_mem hlt)
    have hk := List.getElem?_eq_getElem hlt
    refine ⟨k, _, k.lt_succ_self, h.getElem?_tree_main hk hp, h.parentElement?_of_next hd hk hp hi hn, rfl,
      fun b x hkb hbk => ?_⟩
    omega
  · cases m with
    | zero =>
      rcases h.branchDepth_cases with ⟨-, hzero⟩ | ⟨k, s, hs, hk, hstart⟩
      · exact absurd hdepth (by simp [branchLine, hzero])
      · obtain ⟨a, ha⟩ := h.exists_node_of_mem_handles (List.mem_of_getElem? hk)
        have hlt := (List.getElem?_eq_some_iff.1 hk).1
        refine ⟨k, _, hlt, h.getElem?_tree_main hk ha, h.parentElement?_of_first hd hs ha hi hn, ?_, ?_⟩
        · rw [branchLine, hstart]
          rfl
        · intro b x hkb hb hx
          rcases h.tree_cases hx with ⟨i, n, -, -, rfl⟩ | ⟨m, i, n, rfl, -, -, rfl⟩
          · rw [branchLine, mainLine, hstart]
            exact hkb
          · omega
    | succ m =>
      have hlt : m < (l.handles .relative).length := m.lt_succ_self.trans (List.getElem?_eq_some_iff.1 hi).1
      obtain ⟨p, hp⟩ := h.exists_node_of_mem_handles (List.getElem_mem hlt)
      have hm := List.getElem?_eq_getElem hlt
      refine ⟨(l.handles .main).length + m, _, Nat.lt_succ_self _, h.getElem?_tree_branch hm hp,
        h.parentElement?_of_next hd hm hp hi hn, rfl, fun b x hkb hbk => ?_⟩
      omega

/-- An entry that is not set in has no parent element, or the document element as its parent. -/
theorem top_of_depth_eq_zero (h : Layout d l picks) (hd : d.Sound) (he : l.tree[j]? = some e) (hdepth : e.depth = 0) :
    d.parentElement? e.node = none ∨
      ∃ t, d.documentElement? = some t ∧ d.parentElement? e.node = some t := by
  rcases h.tree_cases he with ⟨i, n, hi, hn, rfl⟩ | ⟨m, i, n, rfl, hi, hn, rfl⟩
  · obtain rfl : j = 0 := hdepth
    have htop : (l.nodesOf (l.path .main)).head? = some n := by
      rw [List.head?_eq_getElem?]
      exact h.getElem?_nodesOf hi hn
    exact h.top hd htop nofun
  · obtain ⟨hstart, rfl⟩ : l.branchDepth = 0 ∧ m = 0 := Nat.add_eq_zero_iff.1 hdepth
    rcases h.branchDepth_cases with ⟨hnone, -⟩ | ⟨k, s, -, -, hsucc⟩
    · have htop : (l.nodesOf (l.path .relative)).head? = some n := by
        rw [path_relative, hnone, List.head?_eq_getElem?]
        exact h.getElem?_nodesOf hi hn
      exact h.top hd htop fun _ => hnone
    · omega

/-- The node of a line is on one of the chains. -/
theorem mem_chain_of_line (h : Layout d l picks) (he : l.tree[j]? = some e) :
    ∃ scope, e.node ∈ picks.chain d scope := by
  rcases h.tree_cases he with ⟨i, n, hi, hn, rfl⟩ | ⟨m, i, n, rfl, hi, hn, rfl⟩
  · have hmem := List.mem_of_getElem? (h.getElem?_nodesOf hi hn)
    rw [Locator.handles, h.nodesOf_main, List.mem_reverse] at hmem
    exact ⟨.main, hmem⟩
  · have hmem := List.mem_of_getElem? (h.getElem?_nodesOf hi hn)
    rw [h.nodesOf_relative, List.mem_reverse] at hmem
    exact ⟨.relative, (List.takeWhile_sublist _).subset hmem⟩

/-- The nodes in the tree are attached elements other than the document element. -/
theorem valid_of_line (h : Layout d l picks) (hd : d.Sound) (he : l.tree[j]? = some e) :
    d.isElement e.node = true ∧ Document.root ∈ d.nodes.lineage e.node ∧ d.documentElement? ≠ some e.node := by
  obtain ⟨scope, hmem⟩ := h.mem_chain_of_line he
  obtain ⟨helement, hattached⟩ := Picks.mem_chain hd h.valid hmem
  refine ⟨helement, hattached, ?_⟩
  unfold Picks.chain at hmem
  split at hmem
  · cases hmem
  · exact Document.documentElement?_ne_of_mem_chainBelowTop hmem

/-- The depth of an entry counts the elements above its node. -/
theorem depth_eq (h : Layout d l picks) (hd : d.Sound) (hnest : d.ElementsNest) (he : l.tree[j]? = some e) :
    e.depth = (d.elementsAbove e.node).ncard := by
  induction j using Nat.strong_induction_on generalizing e with
  | _ j ih =>
    obtain ⟨helement, hattached, -⟩ := h.valid_of_line hd he
    rcases Nat.eq_zero_or_pos e.depth with hzero | hpos
    · rw [hzero, hd.elementsAbove_of_top hnest helement hattached (h.top_of_depth_eq_zero hd he hzero),
        Set.ncard_empty]
    · obtain ⟨k, p, hk, hp, hparent, hdepth, -⟩ := h.exists_parent_line hd he hpos
      obtain ⟨-, hpattached, hptop⟩ := h.valid_of_line hd hp
      rw [hd.ncard_elementsAbove_of_parent hparent hpattached hptop, ← ih k hk hp, hdepth]

/-! ### The common parent -/

/-- The mark is on the entry with the shared handle. -/
theorem isCommonParent_iff (h : Layout d l picks) (he : l.tree[j]? = some e) :
    e.isCommonParent = true ↔ l.branch.bind Branch.shared = some e.handle := by
  rcases h.tree_cases he with ⟨i, n, hi, hn, rfl⟩ | ⟨m, i, n, rfl, hi, hn, rfl⟩
  · rw [mainLine, beq_iff_eq, h.commonPlace?_eq_some_iff]
    simp [hi]
  · refine iff_of_false Bool.false_ne_true fun hshared => ?_
    cases h.scope_eq (h.shared_mem_handles hshared) (List.mem_of_getElem? hi)

/-- The marked entry holds the anchor. -/
theorem map_node_commonParent? (h : Layout d l picks) :
    (MergedTree.commonParent? l.tree).map TreeEntry.node = l.anchor? := by
  rw [anchor?]
  cases hmarked : MergedTree.commonParent? l.tree with
  | some e =>
    obtain ⟨j, hj⟩ := List.mem_iff_getElem?.1 (List.mem_of_find?_eq_some hmarked)
    rw [(h.isCommonParent_iff hj).1 (List.find?_some hmarked), Option.bind_some, h.node?_of_line hj]
    rfl
  | none =>
    cases hshared : l.branch.bind Branch.shared with
    | none => rfl
    | some i =>
      obtain ⟨j, hj⟩ := List.mem_iff_getElem?.1 (h.shared_mem_handles hshared)
      obtain ⟨a, ha⟩ := h.exists_node_of_mem_handles (h.shared_mem_handles hshared)
      have hline := h.getElem?_tree_main hj ha
      exact absurd ((h.isCommonParent_iff hline).2 hshared)
        (List.find?_eq_none.1 hmarked _ (List.mem_of_getElem? hline))

/-- The tree is empty exactly if nothing is picked. -/
theorem tree_eq_nil_iff (h : Layout d l picks) : l.tree = [] ↔ l.main = [] ∧ l.branch = none := by
  have hhandles : l.tree = [] ↔ l.main = [] ∧ l.handles .relative = [] := by
    rw [← List.map_eq_nil_iff (f := TreeEntry.handle), h.map_handle_tree, List.append_eq_nil_iff]
    rfl
  rw [hhandles]
  refine and_congr_right fun hmain => ⟨fun hown => ?_, fun hbranch => by rw [Locator.handles, hbranch]; rfl⟩
  rw [h.branch, Option.map_eq_none_iff, Option.eq_none_iff_forall_ne_some]
  intro r hr
  have hmem := (h.handles_relative_eq_nil_iff hr).1 hown
  have hempty := h.nodesOf_main
  rw [hmain] at hempty
  rw [List.reverse_eq_nil_iff.1 hempty.symm] at hmem
  cases hmem

end Layout

/-! ### Runs -/

/-- The tree shows both chains in order, every handle and every node once. Depths count the attached elements above a
node, the nearest line before an entry that is set in by one level less is its parent, and the only mark is on the
anchor. -/
structure Pictured (l : Locator) : Prop where
  shown : l.tree.map TreeEntry.shown =
    (l.entries .main).map (Entry.shown .main) ++ (l.entries .relative).map (Entry.shown .relative)
  handles : l.tree.map TreeEntry.handle = l.handles .main ++ l.handles .relative
  handlesOnce : (l.tree.map TreeEntry.handle).Nodup
  nodesOnce : (l.tree.map TreeEntry.node).Nodup
  depth : ∀ e ∈ l.tree, e.depth = (l.document.elementsAbove e.node).ncard
  depthOfTop : l.document.parent? Document.root = none → ∀ e ∈ l.tree, e.depth =
    {a | l.document.isElement a = true ∧ l.document.documentElement? ≠ some a ∧ l.document.Above a e.node}.ncard
  parent : ∀ (j : Nat) (e : TreeEntry), l.tree[j]? = some e → 0 < e.depth →
    ∃ (k : Nat) (p : TreeEntry), k < j ∧ l.tree[k]? = some p ∧
      l.document.parentElement? e.node = some p.node ∧ p.depth + 1 = e.depth ∧
      ∀ (b : Nat) (x : TreeEntry), k < b → b < j → l.tree[b]? = some x → e.depth ≤ x.depth
  marked : ∀ e ∈ l.tree, e.isCommonParent = true → e.scope = .main
  markedOnce : l.tree.Pairwise fun e e' => ¬(e.isCommonParent = true ∧ e'.isCommonParent = true)
  common : (MergedTree.commonParent? l.tree).map TreeEntry.node = l.anchor?
  empty : l.tree = [] ↔ l.main = [] ∧ l.branch = none

/-- The tree of a laid out locator pictures its paths, where only elements nest. -/
theorem Layout.pictured (h : Layout d l picks) (hd : d.Sound) (hnest : d.ElementsNest) : Pictured l := by
  obtain rfl := h.document
  have hline : ∀ e ∈ l.tree, ∃ j : Nat, l.tree[j]? = some e := fun e he => List.mem_iff_getElem?.1 he
  have hdepth : ∀ e ∈ l.tree, e.depth = (l.document.elementsAbove e.node).ncard := by
    intro e he
    obtain ⟨j, hj⟩ := hline e he
    exact h.depth_eq hd hnest hj
  refine {
    shown := map_shown_tree l
    handles := h.map_handle_tree
    handlesOnce := h.nodup_handles_tree
    nodesOnce := h.nodup_nodes_tree hd
    depth := hdepth
    depthOfTop := fun hroot e he => ?_
    parent := fun j e he hpos => h.exists_parent_line hd he hpos
    marked := fun e he hmark => ?_
    markedOnce := ?_
    common := h.map_node_commonParent?
    empty := h.tree_eq_nil_iff }
  · obtain ⟨j, hj⟩ := hline e he
    rw [hdepth e he, hd.elementsAbove_eq hroot (h.valid_of_line hd hj).2.1]
  · obtain ⟨j, hj⟩ := hline e he
    rcases h.tree_cases hj with ⟨i, n, -, -, rfl⟩ | ⟨m, i, n, -, -, -, rfl⟩
    · rfl
    · cases hmark
  · refine (List.pairwise_map.1 h.nodup_handles_tree).imp_of_mem fun {e e'} he he' hne hmark => hne ?_
    obtain ⟨j, hj⟩ := hline e he
    obtain ⟨j', hj'⟩ := hline e' he'
    exact Option.some.inj (((h.isCommonParent_iff hj).1 hmark.1).symm.trans ((h.isCommonParent_iff hj').1 hmark.2))

/-- After any operations on a document where only elements nest, the tree is a picture of both chains. -/
theorem pictured_run (hd : d.Built) (hnest : d.ElementsNest) (config : Config) (ops : List Operation) :
    Pictured ((start d config).run ops) :=
  (layout_run hd.sound config ops).pictured hd.sound hnest

/-- The tree of the picks on the page has the second section below the body, which is marked, as the body's second
child. -/
theorem pictured_run_page :
    page.Built ∧ page.ElementsNest ∧ Pictured ((start page {}).run pageOperations) ∧
      ((start page {}).run pageOperations).tree.map (fun e => (e.node, e.depth, e.isCommonParent)) =
        [(2, 0, true), (3, 1, false), (5, 2, false), (6, 1, false)] := by
  have hnest : page.ElementsNest := by decide
  exact ⟨built_page, hnest, pictured_run built_page hnest {} pageOperations, by decide⟩

/-- A paragraph in a document whose document node was appended to a section. -/
def submerged : Document :=
  Document.empty.edits
    [.element "main", .append 0 1, .element "p", .append 1 2, .element "section", .append 3 0]

/-- An element above the document node does not count: chains end at the document node. -/
theorem depth_ne_ncard_submerged :
    submerged.Built ∧ submerged.ElementsNest ∧ ∃ e ∈ ((start submerged {}).run [.pickMain 2]).tree,
      e.depth ≠ {a | submerged.isElement a = true ∧ submerged.documentElement? ≠ some a ∧
        submerged.Above a e.node}.ncard := by
  refine ⟨Document.built_edits (by decide), by decide, ⟨0, 2, "P", 0, .main, false⟩, by decide, ?_⟩
  have habove : submerged.Above 3 2 := .head (b := 1) rfl (.head (b := 0) rfl (.single rfl))
  have hsection : {a | submerged.isElement a = true ∧ submerged.documentElement? ≠ some a ∧ submerged.Above a 2} =
      {3} := by
    refine Set.eq_singleton_iff_unique_mem.2 ⟨⟨by decide, by decide, habove⟩, fun a ⟨ha, hne, hself⟩ => ?_⟩
    have hlt : a < 4 := Document.lt_size_of_isElement ha
    interval_cases a
    · exact absurd ha (by decide)
    · exact absurd rfl hne
    · exact absurd hself ((Document.built_edits (by decide)).sound.wellFormed.not_above_self 2)
    · rfl
  rw [hsection, Set.ncard_singleton]
  exact Nat.zero_ne_one

end Locator

end ElementLocator
