import ElementLocator.Proofs.Document.Markup
import ElementLocator.Proofs.Locator.Layout

/-!
# Coherent locators

What a user of a locator can rely on after any operations: every handle stands for a node, the handles of the main
chain are exactly the lowest ones, both paths climb parent by parent from the picked node, the branch has nothing
in common with the main chain, and the shared handle is where it leaves that chain.
-/

namespace ElementLocator.Locator

/-- The paths of a locator and its registry belong together, and the paths lead to the picks. -/
structure Coherent (l : Locator) (picks : Picks) : Prop where
  resolves : ∀ scope, ∀ i ∈ l.path scope, ∃ n, l.registry.node? i = some n
  mem_main : ∀ i, i ∈ l.main ↔ i < l.main.length
  size : l.registry.size = l.main.length + (l.handles .relative).length
  linked : ∀ scope, (l.nodesOf (l.path scope)).IsChain fun p n => l.document.parentElement? n = some p
  distinct : ∀ scope, (l.nodesOf (l.path scope)).Nodup
  last : ∀ scope, (l.nodesOf (l.path scope)).getLast? = picks.of scope ∧ l.leaf? scope = picks.of scope
  top : ∀ scope t, (l.nodesOf (l.path scope)).head? = some t →
    (scope = .relative → l.branch.bind Branch.shared = none) →
    l.document.parentElement? t = none ∨
      ∃ e, l.document.documentElement? = some e ∧ l.document.parentElement? t = some e
  handles_disjoint : l.main.Disjoint (l.handles .relative)
  nodes_disjoint : (l.nodesOf l.main).Disjoint (l.nodesOf (l.handles .relative))
  shared : ∀ i, l.branch.bind Branch.shared = some i → i ∈ l.main ∧
    ∃ a, l.registry.node? i = some a ∧
      match l.nodesOf (l.handles .relative) with
      | [] => picks.relative = some a
      | n :: _ => l.document.parentElement? n = some a

namespace Layout

variable {d : Document} {l : Locator} {picks : Picks}

/-- The nodes of a path, read from the picked node up, are a front part of the chain of that node. -/
theorem reverse_nodesOf_path_isPrefix (h : Layout d l picks) (scope : Scope) :
    (l.nodesOf (l.path scope)).reverse <+: picks.chain d scope := by
  cases scope with
  | main =>
    rw [path, h.nodesOf_main, List.reverse_reverse]
  | relative =>
    rw [h.nodesOf_path_relative, List.reverse_reverse]
    exact Picks.own_append_shared_isPrefix d picks

/-- Without a shared handle, the path of a scope is the whole chain. -/
theorem nodesOf_path_of_not_shared (h : Layout d l picks) {scope : Scope}
    (hshared : scope = .relative → l.branch.bind Branch.shared = none) :
    l.nodesOf (l.path scope) = (picks.chain d scope).reverse := by
  cases scope with
  | main => exact h.nodesOf_main
  | relative =>
    have hnone : picks.sharedNode? d = none := by
      have hbranch := hshared rfl
      rw [h.shared_eq, Option.map_eq_none_iff] at hbranch
      exact hbranch
    have hall : picks.ownNodes d = picks.chain d .relative := by
      refine List.takeWhile_eq_self_iff.2 fun m hm => ?_
      simpa using List.find?_eq_none.1 hnone m hm
    rw [h.nodesOf_path_relative, hnone, hall, Option.toList_none, List.append_nil]

/-- Along a path, each node is the parent element of the next. -/
theorem linked (h : Layout d l picks) (hd : d.Sound) (scope : Scope) :
    (l.nodesOf (l.path scope)).IsChain fun p n => d.parentElement? n = some p := by
  have hchain := Picks.chain_isChain hd picks scope
  obtain ⟨rest, hrest⟩ := h.reverse_nodesOf_path_isPrefix scope
  rw [← hrest] at hchain
  exact List.isChain_reverse.1 hchain.left_of_append

/-- No node is twice on a path. -/
theorem distinct (h : Layout d l picks) (hd : d.Sound) (scope : Scope) :
    (l.nodesOf (l.path scope)).Nodup := by
  rw [← List.nodup_reverse]
  exact (Picks.chain_nodup hd picks scope).sublist (h.reverse_nodesOf_path_isPrefix scope).sublist

/-- The first node of a path that shares nothing has no parent element or is a child of the document element. -/
theorem top (h : Layout d l picks) (hd : d.Sound) {scope : Scope} {t : NodeId}
    (ht : (l.nodesOf (l.path scope)).head? = some t)
    (hshared : scope = .relative → l.branch.bind Branch.shared = none) :
    d.parentElement? t = none ∨ ∃ e, d.documentElement? = some e ∧ d.parentElement? t = some e := by
  rw [h.nodesOf_path_of_not_shared hshared, List.head?_reverse] at ht
  cases hp : d.parentElement? t with
  | none => exact .inl rfl
  | some p =>
    rcases Picks.parentElement?_of_getLast?_chain hd ht with hnone | htop
    · rw [hp] at hnone
      cases hnone
    · exact .inr ⟨p, htop ▸ hp, rfl⟩

/-- Below the shared node starts the branch; if the branch is empty, the shared node is the picked one. -/
theorem shared (h : Layout d l picks) (hd : d.Sound) {i : Handle} (hi : l.branch.bind Branch.shared = some i) :
    ∃ a, l.registry.node? i = some a ∧
      match l.nodesOf (l.handles .relative) with
      | [] => picks.relative = some a
      | n :: _ => d.parentElement? n = some a := by
  obtain ⟨a, ha⟩ := h.exists_node (show i ∈ l.path .relative by simp [path_relative, hi])
  have hanchor : l.anchor? = some a := by rw [anchor?, hi, Option.bind_some, ha]
  have hpath : l.nodesOf (l.path .relative) = a :: l.nodesOf (l.handles .relative) := by
    rw [h.nodesOf_path_relative, ← h.anchor?_eq, hanchor, List.reverse_append, h.nodesOf_relative]
    rfl
  refine ⟨a, ha, ?_⟩
  cases hown : l.nodesOf (l.handles .relative) with
  | nil =>
    have hleaf := h.leaf?_eq .relative
    rw [h.leaf?_eq_getLast?, hpath, hown] at hleaf
    exact hleaf.symm
  | cons n rest =>
    have hlinked := h.linked hd .relative
    rw [hpath, hown] at hlinked
    exact (List.isChain_cons_cons.1 hlinked).1

/-- The layout of picks is coherent. -/
theorem coherent (h : Layout d l picks) (hd : d.Sound) : Coherent l picks where
  resolves scope i hi := h.exists_node hi
  mem_main i := h.mem_main_iff
  size := h.size_eq
  linked scope := h.document ▸ h.linked hd scope
  distinct scope := h.distinct hd scope
  last scope := ⟨(h.leaf?_eq_getLast? scope).symm.trans (h.leaf?_eq scope), h.leaf?_eq scope⟩
  top scope t ht hshared := h.document ▸ h.top hd ht hshared
  handles_disjoint i hmain hrelative :=
    absurd (h.mem_main_iff.1 hmain) (Nat.not_lt.2 (h.le_of_mem_relative hrelative).1)
  nodes_disjoint := by
    rw [h.nodesOf_main, h.nodesOf_relative]
    intro m hmain hrelative
    exact Picks.ownNodes_disjoint d picks (List.mem_reverse.1 hmain) (List.mem_reverse.1 hrelative)
  shared i hi := ⟨h.shared_mem_main hi, h.document ▸ h.shared hd hi⟩

end Layout

/-! ### Runs -/

/-- Whatever is picked, refined and rewritten, in any order and with any refusals in between, leaves a coherent
locator whose paths lead to the last picks that were accepted. -/
theorem coherent_run {d : Document} (hd : d.Built) (config : Config) (ops : List Operation) :
    Coherent ((start d config).run ops) (Picks.ofRun d ops) :=
  (layout_run hd.sound config ops).coherent hd.sound

/-- A page with two sections, the first of which holds two paragraphs. -/
def page : Document :=
  (((((Document.empty.addChild 0 (Document.elementContent "html" [])).addChild 1
    (Document.elementContent "body" [])).addChild 2
    (Document.elementContent "section" [("class", "wide card")])).addChild 3
    (Document.elementContent "p" [])).addChild 3
    (Document.elementContent "p" [("title", "it's")])).addChild 2
    (Document.elementContent "section" [("id", "second")])

/-- The page arises from edits. -/
theorem built_page : page.Built := by
  have hhtml := (Document.Built.empty.add_element "html" []).addChild (show 0 < Document.empty.size by decide)
  have hbody := (hhtml.add_element "body" []).addChild (show 1 < Document.size _ by decide)
  have hfirst := (hbody.add_element "section" [("class", "wide card")]).addChild (show 2 < Document.size _ by decide)
  have hplain := (hfirst.add_element "p" []).addChild (show 3 < Document.size _ by decide)
  have htitled := (hplain.add_element "p" [("title", "it's")]).addChild (show 3 < Document.size _ by decide)
  exact (htitled.add_element "section" [("id", "second")]).addChild (by decide)

/-- Picks of the second paragraph and of the second section with refinements of both, and refused operations in
between. -/
def pageOperations : List Operation :=
  [.pickRelative 6, .pickMain 5, .pickMain 1, .toggle .main 1 "Class" "card" true, .toggle .main 2 "title" "it's" true,
    .toggle .main 2 "title" "its" true, .pickRelative 6, .toggle .relative 0 "id" "second" true, .setUseXPath true]

/-- The run on the page leaves the three handles of the main path, and it is coherent. -/
theorem coherent_run_page :
    ((start page {}).run pageOperations).main = [2, 1, 0] ∧
      Coherent ((start page {}).run pageOperations) (Picks.ofRun page pageOperations) :=
  ⟨by decide, coherent_run built_page {} pageOperations⟩

end ElementLocator.Locator
