import ElementLocator.Proofs.Locator.Coherence
import ElementLocator.Proofs.Locator.Offers
import ElementLocator.Proofs.Locator.Toggling

/-!
# What a toggle leaves alone

A toggle alters the descriptor of one handle, which keeps its node, and nothing else. The entries of a locator have
handles of their own, those of both scopes taken together, so every other entry is what it was, and toggles of different
entries can be done in either order. The common ancestor is an entry of the main scope only, so how it is refined never
shows in the query of the relative scope.
-/

namespace ElementLocator.Locator

variable {d : Document} {l l' : Locator} {picks : Picks} {scope scope' : Scope} {h i : Handle} {index index' : Nat}
  {changed : Bool} {x : Descriptor} {change change' : Descriptor → Descriptor}

/-! ### Altering one descriptor -/

/-- The locator with the descriptor of a handle altered. -/
def alter (l : Locator) (h : Handle) (change : Descriptor → Descriptor) : Locator :=
  { l with registry := { l.registry with descriptors := l.registry.descriptors.modify h change } }

/-- An altered descriptor is found changed. -/
theorem get?_alter_self : (l.alter h change).registry.get? h = (l.registry.get? h).map change :=
  List.getElem?_modify_eq change h l.registry.descriptors

/-- The other descriptors stay. -/
theorem get?_alter_of_ne (hne : h ≠ i) : (l.alter h change).registry.get? i = l.registry.get? i :=
  List.getElem?_modify_ne change l.registry.descriptors hne

/-- Altering a descriptor sets its entry in the registry. -/
theorem alter_eq_set (hx : l.registry.get? h = some x) :
    l.alter h change = { l with registry := l.registry.set h (change x) } := by
  have hdescriptors : l.registry.descriptors.modify h change = l.registry.descriptors.set h (change x) := by
    rw [List.modify_eq_set_getElem?, show l.registry.descriptors[h]? = some x from hx]
    rfl
  rw [alter, hdescriptors]
  rfl

/-- An alteration that finds nothing to change leaves the locator as it is. -/
theorem alter_eq_self (hsame : ∀ x, l.registry.get? h = some x → change x = x) : l.alter h change = l := by
  have hdescriptors : l.registry.descriptors.modify h change = l.registry.descriptors := by
    refine List.ext_getElem? fun i => ?_
    by_cases hi : h = i
    · subst hi
      rw [List.getElem?_modify_eq]
      cases hx : l.registry.descriptors[h]? with
      | none => rfl
      | some x => exact congrArg some (hsame x hx)
    · rw [List.getElem?_modify_ne change _ hi]
  rw [alter, hdescriptors]

/-- Alterations of two descriptors can be done in either order. -/
theorem alter_comm (hne : h ≠ i) : (l.alter h change).alter i change' = (l.alter i change').alter h change := by
  rw [alter, alter, alter, alter]
  dsimp only
  rw [List.modify_modify_ne change change' _ hne]

section Nodes

variable (hnode : ∀ x, (change x).node = x.node)

include hnode

/-- Altering a descriptor keeps the nodes of all handles. -/
theorem node?_alter (i : Handle) : (l.alter h change).registry.node? i = l.registry.node? i := by
  rw [Registry.node?, Registry.node?]
  by_cases hi : h = i
  · subst hi
    rw [get?_alter_self, Option.map_map]
    exact congrArg (Option.map · _) (funext hnode)
  · rw [get?_alter_of_ne hi]

/-- Altering a descriptor keeps the leaves of the paths. -/
theorem leaf?_alter (scope : Scope) : (l.alter h change).leaf? scope = l.leaf? scope := by
  cases scope <;> exact congrArg (Option.bind _) (funext (node?_alter hnode))

/-- Altering a descriptor keeps the anchor. -/
theorem anchor?_alter : (l.alter h change).anchor? = l.anchor? :=
  congrArg (Option.bind _) (funext (node?_alter hnode))

/-- Altering a descriptor keeps the tree of the paths. -/
theorem tree_alter : (l.alter h change).tree = l.tree := by
  have hentries : ∀ (scope : Scope) (common : Option Nat) (handles : List Handle) (depth : Nat),
      treeEntries l.document (l.alter h change).registry scope common depth handles =
        treeEntries l.document l.registry scope common depth handles := by
    intro scope common handles
    induction handles with
    | nil => exact fun _ => rfl
    | cons i rest ih =>
      intro depth
      rw [treeEntries, treeEntries, ih, node?_alter hnode]
  rw [tree, tree, mergedTree, mergedTree]
  exact congrArg₂ (· ++ ·) (hentries _ _ _ _) (hentries _ _ _ _)

end Nodes

/-! ### A toggle as an alteration -/

/-- A toggle keeps the node of a descriptor. -/
theorem Descriptor.node_after (x : Descriptor) (d : Document) (config : Config) (t : Descriptor.Toggle) :
    (x.after d config t).node = x.node := by
  rw [Descriptor.after]
  split
  · next changed x' htoggle =>
    obtain ⟨hset, -⟩ := Registry.descriptor_toggle_eq_ok_iff.1 htoggle
    exact (Registry.descriptor_setIncluded_eq_ok hset).2.2.1
  · rfl

/-- A toggle of an entry. -/
structure EntryToggle where
  scope : Scope
  index : Nat
  toggle : Descriptor.Toggle
  deriving Repr, DecidableEq

/-- The toggle as an operation. -/
def EntryToggle.operation (t : EntryToggle) : Operation :=
  .toggle t.scope t.index t.toggle.name t.toggle.value t.toggle.included

/-- How a toggle is answered: whether it changes anything, or why it is refused. -/
def answer (l : Locator) (t : EntryToggle) : Except Error Bool :=
  (l.toggle t.scope t.index t.toggle.name t.toggle.value t.toggle.included).map Prod.fst

/-- The handle of the entry that a toggle is about. -/
def EntryToggle.handle? (l : Locator) (t : EntryToggle) : Option Handle := (l.handles t.scope)[t.index]?

/-- What a toggle does to a locator: it alters the descriptor of its entry, if there is one. -/
theorem step_operation (l : Locator) (t : EntryToggle) :
    l.step t.operation = match t.handle? l with
      | none => l
      | some h => l.alter h fun x => x.after l.document l.config t.toggle := by
  rw [EntryToggle.operation, step, perform, toggle, EntryToggle.handle?]
  cases hh : (l.handles t.scope)[t.index]? with
  | none => rfl
  | some h =>
    dsimp only
    cases hx : l.registry.get? h with
    | none =>
      rw [alter_eq_self (by simp [hx]), Registry.setIncluded, hx]
      rfl
    | some x =>
      rw [alter_eq_set hx, Registry.setIncluded, hx, Descriptor.after]
      dsimp only
      cases htoggle : x.toggle l.document l.config t.toggle.name t.toggle.value t.toggle.included with
      | error e =>
        have hsame : l.registry.set h x = l.registry := by
          obtain ⟨hlt, heq⟩ := List.getElem?_eq_some_iff.1 hx
          rw [Registry.set, ← heq, List.set_getElem_self]
        simp [bind, Except.bind, Except.map, hsame]
      | ok result => rfl

/-- The answer to a toggle depends on the document, the settings and the descriptor of the entry. -/
theorem answer_eq (l : Locator) (t : EntryToggle) :
    answer l t = match l.descriptor? t.scope t.index with
      | none => .error (.unknownEntry t.scope t.index)
      | some x =>
        (x.toggle l.document l.config t.toggle.name t.toggle.value t.toggle.included).map Prod.fst := by
  cases hx : l.descriptor? t.scope t.index with
  | none => rw [answer, toggle_of_none hx, Except.map]
  | some x =>
    obtain ⟨handle, htoggle⟩ := toggle_of_some hx t.toggle.name t.toggle.value t.toggle.included
    rw [answer, htoggle]
    dsimp only
    cases x.toggle l.document l.config t.toggle.name t.toggle.value t.toggle.included <;> rfl

/-- An accepted toggle is a step to its result. -/
theorem step_operation_of_toggle {t : EntryToggle}
    (h : l.toggle t.scope t.index t.toggle.name t.toggle.value t.toggle.included = .ok (changed, l')) :
    l.step t.operation = l' := by
  rw [EntryToggle.operation, step, perform, h]
  rfl

/-- A refused toggle is a step that changes nothing. -/
theorem step_operation_of_refused {t : EntryToggle} {e : Error}
    (h : l.toggle t.scope t.index t.toggle.name t.toggle.value t.toggle.included = .error e) :
    l.step t.operation = l := by
  rw [EntryToggle.operation, step, perform, h]
  rfl

/-- An accepted toggle replaces the descriptor of its entry by what the toggle makes of it. -/
theorem alter_of_toggle {t : EntryToggle}
    (h : l.toggle t.scope t.index t.toggle.name t.toggle.value t.toggle.included = .ok (changed, l')) :
    ∃ i x x', t.handle? l = some i ∧ l.registry.get? i = some x ∧
      x.toggle l.document l.config t.toggle.name t.toggle.value t.toggle.included = .ok (changed, x') ∧
      x.after l.document l.config t.toggle = x' ∧
      l' = l.alter i fun x => x.after l.document l.config t.toggle := by
  have hanswer : answer l t = .ok changed := by rw [answer, h, Except.map]
  rw [answer_eq] at hanswer
  cases hentry : l.descriptor? t.scope t.index with
  | none =>
    rw [hentry] at hanswer
    cases hanswer
  | some x =>
    obtain ⟨i, hi, hx⟩ := Option.bind_eq_some_iff.1 hentry
    have hstep := (step_operation_of_toggle h).symm.trans (step_operation l t)
    rw [EntryToggle.handle?, hi] at hstep
    rw [hentry] at hanswer
    dsimp only at hanswer
    cases hresult : x.toggle l.document l.config t.toggle.name t.toggle.value t.toggle.included with
    | error e =>
      rw [hresult] at hanswer
      cases hanswer
    | ok result =>
      rw [hresult] at hanswer
      cases hanswer
      exact ⟨i, x, result.2, hi, hx, hresult, by rw [Descriptor.after, hresult], hstep⟩

/-! ### Descriptors of different entries -/

namespace Layout

/-- Different entries have different handles. -/
theorem handle_ne (h : Layout d l picks) (hplace : (scope, index) ≠ (scope', index'))
    (hi : (l.handles scope)[index]? = some i) : (l.handles scope')[index']? ≠ some i := by
  intro hi'
  obtain rfl : scope = scope' := h.scope_eq (List.mem_of_getElem? hi) (List.mem_of_getElem? hi')
  have hindex := (List.getElem?_inj (List.getElem?_eq_some_iff.1 hi).1 (h.handles_nodup scope)).1 (hi.trans hi'.symm)
  exact hplace (congrArg _ hindex)

/-- Every handle of a path has a descriptor. -/
theorem exists_descriptor (h : Layout d l picks) (hi : i ∈ l.handles scope) : ∃ x, l.registry.get? i = some x := by
  obtain ⟨n, hn⟩ := h.exists_node_of_mem_handles hi
  obtain ⟨x, hx, -⟩ := Option.map_eq_some_iff.1 hn
  exact ⟨x, hx⟩

end Layout

/-! ### What is shown of an entry -/

/-- What a descriptor with the given handle shows. -/
def entryOf (l : Locator) (h : Handle) (x : Descriptor) : Entry :=
  ⟨h, x.node, (l.document.tagName? x.node).getD "", x.attributes, l.document.hasPositionalConflict x.node⟩

/-- An entry without its values. -/
def Entry.unrefined (e : Entry) : Entry := { e with attributes := [] }

/-- The entry at a place shows the descriptor there. -/
theorem Layout.getElem?_entries (hl : Layout d l picks) (scope : Scope) (index : Nat) :
    (l.entries scope)[index]? =
      (l.handles scope)[index]?.bind fun i => (l.registry.get? i).map (l.entryOf i) := by
  refine getElem?_filterMap_of_isSome (fun i hi => ?_) index
  obtain ⟨x, hx⟩ := hl.exists_descriptor hi
  simp [hx]

/-- Altering a descriptor without changing its node keeps the entries up to their refinements. -/
theorem map_unrefined_alter (hnode : ∀ x, (change x).node = x.node) (scope : Scope) :
    ((l.alter h change).entries scope).map Entry.unrefined = (l.entries scope).map Entry.unrefined := by
  have hshown : ∀ (l : Locator) (i : Handle),
      ((l.registry.get? i).map (l.entryOf i)).map Entry.unrefined =
        (l.registry.node? i).map fun n => l.entryOf i { node := n } := by
    intro l i
    rw [Registry.node?, Option.map_map, Option.map_map]
    rfl
  rw [entries, entries, List.map_filterMap, List.map_filterMap]
  refine congrArg (List.filterMap · _) (funext fun i => ?_)
  exact (hshown (l.alter h change) i).trans ((congrArg _ (node?_alter hnode i)).trans (hshown l i).symm)

/-- A query shows only the descriptors of its scope. -/
theorem query_alter (hh : h ∉ l.handles scope) : (l.alter h change).query scope = l.query scope := by
  have hsame : (l.handles scope).filterMap (l.alter h change).registry.get? =
      (l.handles scope).filterMap l.registry.get? := by
    refine List.filterMap_congr fun i hi => get?_alter_of_ne ?_
    rintro rfl
    exact hh hi
  exact congrArg (fun xs => String.ofList (renderChars l.document xs l.grammar (l.anchoring scope))) hsame

/-! ### The frame of a toggle -/

/-- The second locator is the first one after an accepted toggle: the descriptor of the toggled entry is the only thing
that may differ, and the query of the other scope is the same. -/
structure TouchesOnly (l l' : Locator) (t : EntryToggle) (changed : Bool) : Prop where
  document : l'.document = l.document
  config : l'.config = l.config
  grammar : l'.grammar = l.grammar
  handles : ∀ scope, l'.handles scope = l.handles scope
  unrefined : ∀ scope, (l'.entries scope).map Entry.unrefined = (l.entries scope).map Entry.unrefined
  leaf : ∀ scope, l'.leaf? scope = l.leaf? scope
  common : l'.hasCommonAncestor = l.hasCommonAncestor
  anchor : l'.anchor? = l.anchor?
  tree : l'.tree = l.tree
  toggled : ∃ x x', l.descriptor? t.scope t.index = some x ∧ l'.descriptor? t.scope t.index = some x' ∧
    x.toggle l.document l.config t.toggle.name t.toggle.value t.toggle.included = .ok (changed, x')
  others : ∀ scope index, (scope, index) ≠ (t.scope, t.index) →
    l'.descriptor? scope index = l.descriptor? scope index ∧
      (l'.entries scope)[index]? = (l.entries scope)[index]?
  query : ∀ scope, scope ≠ t.scope → l'.query scope = l.query scope

/-- The handle is one of the main chain only, and nothing that is done to its descriptor shows in the query of the
relative scope. -/
structure OnlyInMain (l : Locator) (i : Handle) : Prop where
  main : ∃ index : Nat, (l.handles .main)[index]? = some i
  only : ∀ (scope : Scope) (index : Nat), (l.handles scope)[index]? = some i → scope = .main
  query : ∀ change, (l.alter i change).query .relative = l.query .relative

/-- Altering the descriptor of one place changes no descriptor at another place. -/
theorem Layout.descriptor?_alter_of_ne (hl : Layout d l picks) (hh : (l.handles scope)[index]? = some h)
    (hplace : (scope', index') ≠ (scope, index)) :
    (l.alter h change).descriptor? scope' index' = l.descriptor? scope' index' := by
  refine Option.bind_congr fun i hi => get?_alter_of_ne ?_
  rintro rfl
  exact hl.handle_ne hplace hi hh

/-- Altering the descriptor of one place changes no entry at another place. -/
theorem Layout.getElem?_entries_alter_of_ne (hl : Layout d l picks) (hl' : Layout d (l.alter h change) picks)
    (hh : (l.handles scope)[index]? = some h) (hplace : (scope', index') ≠ (scope, index)) :
    ((l.alter h change).entries scope')[index']? = (l.entries scope')[index']? := by
  rw [hl.getElem?_entries, hl'.getElem?_entries]
  refine Option.bind_congr fun i hi => congrArg (Option.map _) (get?_alter_of_ne ?_)
  rintro rfl
  exact hl.handle_ne hplace hi hh

/-- A toggle keeps the layout. -/
theorem Layout.step_operation (hl : Layout d l picks) (hd : d.Sound) (t : EntryToggle) :
    Layout d (l.step t.operation) picks :=
  hl.effect hd (effect_step l picks t.operation)

/-- A toggle that is accepted touches its own entry alone. -/
theorem Layout.touchesOnly (hl : Layout d l picks) (hd : d.Sound) {t : EntryToggle}
    (htoggle : l.toggle t.scope t.index t.toggle.name t.toggle.value t.toggle.included = .ok (changed, l')) :
    TouchesOnly l l' t changed := by
  have hl' : Layout d l' picks := step_operation_of_toggle htoggle ▸ hl.step_operation hd t
  obtain ⟨h, x, x', hh, hx, hx', hafter, rfl⟩ := alter_of_toggle htoggle
  have hnode : ∀ x : Descriptor, (x.after l.document l.config t.toggle).node = x.node := fun x =>
    x.node_after l.document l.config t.toggle
  refine {
    document := rfl
    config := rfl
    grammar := rfl
    handles := fun scope => rfl
    unrefined := map_unrefined_alter hnode
    leaf := leaf?_alter hnode
    common := rfl
    anchor := anchor?_alter hnode
    tree := tree_alter hnode
    toggled := ⟨x, x', Option.bind_eq_some_iff.2 ⟨h, hh, hx⟩, Option.bind_eq_some_iff.2 ⟨h, hh, ?_⟩, hx'⟩
    others := fun scope index hplace =>
      ⟨hl.descriptor?_alter_of_ne hh hplace, hl.getElem?_entries_alter_of_ne hl' hh hplace⟩
    query := fun scope hscope => query_alter fun hmem => hscope (hl.scope_eq hmem (List.mem_of_getElem? hh)) }
  rw [get?_alter_self, hx, Option.map_some, hafter]

/-- A toggle keeps the descriptors of all other places. -/
theorem Layout.descriptor?_step_of_ne (hl : Layout d l picks) {t : EntryToggle}
    (hplace : (scope, index) ≠ (t.scope, t.index)) :
    (l.step t.operation).descriptor? scope index = l.descriptor? scope index := by
  rw [Locator.step_operation, EntryToggle.handle?]
  cases hh : (l.handles t.scope)[t.index]? with
  | none => rfl
  | some h => exact hl.descriptor?_alter_of_ne hh hplace

/-- A toggle is answered as it would be before a toggle of another entry. -/
theorem Layout.answer_step (hl : Layout d l picks) {t t' : EntryToggle}
    (hplace : (t'.scope, t'.index) ≠ (t.scope, t.index)) : answer (l.step t.operation) t' = answer l t' := by
  rw [answer_eq, answer_eq, hl.descriptor?_step_of_ne hplace, document_step, config_step]

/-- Toggles of two entries can be done in either order. -/
theorem Layout.step_comm (hl : Layout d l picks) {t t' : EntryToggle}
    (hplace : (t.scope, t.index) ≠ (t'.scope, t'.index)) :
    (l.step t.operation).step t'.operation = (l.step t'.operation).step t.operation := by
  have hsecond : ∀ t t' : EntryToggle, (l.step t.operation).step t'.operation = match t'.handle? l with
      | none => l.step t.operation
      | some h => (l.step t.operation).alter h fun x => x.after l.document l.config t'.toggle := by
    intro t t'
    have hhandle : t'.handle? (l.step t.operation) = t'.handle? l := by
      rw [Locator.step_operation l t]
      cases t.handle? l <;> rfl
    rw [Locator.step_operation (l.step t.operation) t', hhandle, document_step, config_step]
  rw [hsecond, hsecond, Locator.step_operation l t, Locator.step_operation l t']
  cases hh : t.handle? l with
  | none => cases t'.handle? l <;> rfl
  | some h =>
    cases hh' : t'.handle? l with
    | none => rfl
    | some h' =>
      refine alter_comm ?_
      rintro rfl
      exact hl.handle_ne hplace hh hh'

/-- The shared handle has its entry in the main path. -/
theorem Layout.onlyInMain (hl : Layout d l picks) (hi : l.branch.bind Branch.shared = some i) : OnlyInMain l i where
  main := List.mem_iff_getElem?.1 (hl.shared_mem_handles hi)
  only scope index hindex := hl.scope_eq (List.mem_of_getElem? hindex) (hl.shared_mem_handles hi)
  query change := query_alter fun hmem => by
    cases hl.scope_eq hmem (hl.shared_mem_handles hi)

/-- After any operations: an accepted toggle touches its entry only, a refused one nothing. Toggles of two entries, of
one scope or of both, can be done in either order and are answered alike. The common ancestor is an entry of the main
scope only, and its values never show in the query of the relative scope. -/
theorem toggle_touches_one_entry (hd : d.Built) (config : Config) (ops : List Operation) :
    let l := (start d config).run ops
    (∀ (t : EntryToggle) changed l',
      l.toggle t.scope t.index t.toggle.name t.toggle.value t.toggle.included = .ok (changed, l') →
        l.step t.operation = l' ∧ TouchesOnly l l' t changed) ∧
    (∀ (t : EntryToggle) e,
      l.toggle t.scope t.index t.toggle.name t.toggle.value t.toggle.included = .error e →
        l.step t.operation = l) ∧
    (∀ t t' : EntryToggle, (t.scope, t.index) ≠ (t'.scope, t'.index) →
      (l.step t.operation).step t'.operation = (l.step t'.operation).step t.operation ∧
        answer (l.step t.operation) t' = answer l t' ∧ answer (l.step t'.operation) t = answer l t) ∧
    ∀ i, l.branch.bind Branch.shared = some i → OnlyInMain l i := by
  intro l
  have hl := layout_run hd.sound config ops
  refine ⟨fun t changed l' htoggle => ?_, fun t e htoggle => ?_, fun t t' hplace => ?_,
    fun i hi => hl.onlyInMain hi⟩
  · exact ⟨step_operation_of_toggle htoggle, hl.touchesOnly hd.sound htoggle⟩
  · exact step_operation_of_refused htoggle
  · exact ⟨hl.step_comm hplace, hl.answer_step hplace.symm, hl.answer_step hplace⟩

/-- On the page, taking back the value of the section that is the relative pick touches that entry only, and the body,
which both picks are in, is an entry of the main scope only. -/
theorem toggle_touches_one_entry_page :
    page.Built ∧
      (∃ changed l',
        ((start page {}).run pageOperations).toggle .relative 0 "id" "second" false = .ok (changed, l') ∧
          TouchesOnly ((start page {}).run pageOperations) l' ⟨.relative, 0, ⟨"id", "second", false⟩⟩ changed) ∧
      OnlyInMain ((start page {}).run pageOperations) 2 := by
  obtain ⟨htouches, -, -, hshared⟩ := toggle_touches_one_entry built_page {} pageOperations
  refine ⟨built_page, ?_, hshared 2 (by decide)⟩
  have haccepted : (((start page {}).run pageOperations).toggle .relative 0 "id" "second" false).isOk = true := by
    decide
  cases htoggle : ((start page {}).run pageOperations).toggle .relative 0 "id" "second" false with
  | error e =>
    rw [htoggle] at haccepted
    cases haccepted
  | ok answer =>
    obtain ⟨changed, l'⟩ := answer
    exact ⟨changed, l', rfl, (htouches ⟨.relative, 0, ⟨"id", "second", false⟩⟩ changed l' htoggle).2⟩

end ElementLocator.Locator
