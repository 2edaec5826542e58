import ElementLocator.Proofs.Locator.Trail

/-!
# What a pick forgets

A main pick starts afresh, so what is left of the past after it is the grammar. A relative pick cuts the registry to
the main chain, so what is left is that chain with its refinements and the grammar. What a pick forgets is the state
itself, not only what can be read off it: two locators that agree in what is kept are the same after the pick, their
registries and indices included. A refused pick forgets nothing.
-/

namespace ElementLocator.Locator

variable {d : Document} {l l' m : Locator} {n : NodeId} {scope : Scope} {e : Error}

/-! ### The results of picks -/

/-- A main pick succeeds exactly if its node is valid, and then starts the registry anew with the chain of the node. -/
theorem pickMain_eq_ok_iff :
    l.pickMain n = .ok m ↔ validatePick l.document n = .ok () ∧
      { l with registry := (Registry.insertChain {} l.document n).2,
               main := (Registry.insertChain {} l.document n).1, branch := none } = m := by
  unfold pickMain
  cases validatePick l.document n with
  | error e => simp [bind, Except.bind]
  | ok u => simp [bind, Except.bind]

/-- A relative pick succeeds exactly if its node is valid, and then keeps the main part of the registry and adds the
branch. -/
theorem pickRelative_eq_ok_iff :
    l.pickRelative n = .ok m ↔ validatePick l.document n = .ok () ∧
      { l with registry := ((l.registry.truncate l.main.length).insertBranch l.document n l.main).2,
               branch := some ((l.registry.truncate l.main.length).insertBranch l.document n l.main).1 } = m := by
  unfold pickRelative
  cases validatePick l.document n with
  | error e => simp [bind, Except.bind]
  | ok u => simp [bind, Except.bind]

/-- Whether a pick is refused, and why, depends on the document and the node alone. -/
theorem pick_eq_error_iff : l.pick scope n = .error e ↔ validatePick l.document n = .error e := by
  cases scope <;> cases hvalid : validatePick l.document n <;>
    simp [pick, pickMain, pickRelative, hvalid, bind, Except.bind]

/-- A refused operation leaves the locator as it is. -/
theorem step_of_error {op : Operation} (h : l.perform op = .error e) : l.step op = l := by
  rw [step, h]

/-! ### What is kept of the registry -/

namespace Registry

variable {r : Registry}

/-- Inserting leaves the descriptors in front as they were. -/
theorem isPrefix_insertAll (r : Registry) (ns : List NodeId) : r.descriptors <+: (r.insertAll ns).2.descriptors := by
  induction ns generalizing r with
  | nil => exact List.prefix_refl _
  | cons n rest ih =>
    refine List.IsPrefix.trans ?_ (ih (r.insert n).2)
    unfold insert
    split
    · exact List.prefix_refl _
    · exact List.prefix_append _ _

/-- A branch that is registered beside a chain of lower handles leaves what these stand for. -/
theorem get?_insertBranch_truncate {chain : Chain} {k : Nat} {i : Handle} (hk : k ≤ r.size) (hi : i < k) :
    ((r.truncate k).insertBranch d n chain).2.get? i = r.get? i := by
  obtain ⟨new, hnew⟩ := isPrefix_insertAll (r.truncate k)
    ((d.chainBelowTop n).takeWhile fun m => ((r.truncate k).lookupOn chain m).isNone)
  have hlt : i < (r.truncate k).descriptors.length := by
    rw [truncate, List.length_take]
    exact Nat.lt_min.2 ⟨hi, Nat.lt_of_lt_of_le hi hk⟩
  calc ((r.truncate k).insertBranch d n chain).2.get? i
    _ = ((r.truncate k).descriptors ++ new)[i]? := by rw [hnew]; rfl
    _ = (r.descriptors.take k)[i]? := List.getElem?_append_left hlt
    _ = r.get? i := List.getElem?_take_of_lt hi

end Registry

/-- The entries of a scope show its descriptors. -/
theorem descriptorsOf_eq_map_entries (l : Locator) (scope : Scope) :
    l.descriptorsOf scope = (l.entries scope).map fun entry => ⟨entry.node, entry.attributes⟩ := by
  rw [entries, List.map_filterMap, descriptorsOf]
  congr 1
  funext i
  cases l.registry.get? i <;> rfl

namespace Layout

variable {picks picks' : Picks}

/-- The descriptors of the main chain, from the picked node up, are the front part of the registry. -/
theorem descriptorsOf_main (h : Layout d l picks) :
    l.descriptorsOf .main = (l.registry.truncate l.main.length).descriptors.reverse := by
  rw [descriptorsOf, handles, Registry.truncate, h.main, List.filterMap_reverse, List.range_eq_range',
    List.length_reverse, List.length_range']
  congr 1
  exact filterMap_getElem?_range' l.registry.descriptors 0 _

/-- There are no more main handles than registered nodes. -/
theorem length_main_le (h : Layout d l picks) : l.main.length ≤ l.registry.size := by
  rw [h.size_eq]
  exact Nat.le_add_right _ _

/-- Every main handle has a descriptor. -/
theorem length_descriptorsOf_main (h : Layout d l picks) : (l.descriptorsOf .main).length = l.main.length := by
  rw [h.descriptorsOf_main, List.length_reverse, Registry.truncate, List.length_take]
  exact Nat.min_eq_left h.length_main_le

/-- The handles of the main chain are determined by its length. -/
theorem main_eq (h : Layout d l picks) : l.main = (List.range (l.descriptorsOf .main).length).reverse := by
  rw [h.length_descriptorsOf_main, h.main, List.length_reverse, List.length_range]

/-- What is left of a registry that is cut to the main chain is determined by the descriptors of that chain. -/
theorem truncate_congr (h : Layout d l picks) (h' : Layout d l' picks')
    (hmain : l.descriptorsOf .main = l'.descriptorsOf .main) :
    l.registry.truncate l.main.length = l'.registry.truncate l'.main.length := by
  refine (h.indexed.truncate _).ext (h'.indexed.truncate _) ?_
  rw [← List.reverse_inj, ← h.descriptorsOf_main, ← h'.descriptorsOf_main, hmain]

/-- A relative pick leaves what the handles of the main chain stand for. -/
theorem get?_pickRelative (h : Layout d l picks) (hm : l.pickRelative n = .ok m) {i : Handle} (hi : i ∈ l.main) :
    m.registry.get? i = l.registry.get? i := by
  obtain ⟨-, rfl⟩ := pickRelative_eq_ok_iff.1 hm
  exact Registry.get?_insertBranch_truncate h.length_main_le (h.mem_main_iff.1 hi)

end Layout

/-! ### The picks -/

/-- After a main pick, locators of one document with the same settings and grammar are the same. -/
theorem pickMain_congr (hdocument : l'.document = l.document) (hconfig : l'.config = l.config)
    (hgrammar : l'.grammar = l.grammar) (hm : l.pickMain n = .ok m) : l'.pickMain n = .ok m := by
  obtain ⟨hvalid, rfl⟩ := pickMain_eq_ok_iff.1 hm
  rw [pickMain_eq_ok_iff, hdocument, hconfig, hgrammar]
  exact ⟨hvalid, rfl⟩

/-- After a relative pick, locators with the same settings and grammar and the same main chain are the same. -/
theorem Layout.pickRelative_congr {picks picks' : Picks} (h : Layout d l picks) (h' : Layout d l' picks')
    (hconfig : l'.config = l.config) (hgrammar : l'.grammar = l.grammar)
    (hchain : l'.descriptorsOf .main = l.descriptorsOf .main) (hm : l.pickRelative n = .ok m) :
    l'.pickRelative n = .ok m := by
  have hmain : l'.main = l.main := by
    rw [h'.main_eq, h.main_eq, hchain]
  obtain ⟨hvalid, rfl⟩ := pickRelative_eq_ok_iff.1 hm
  rw [pickRelative_eq_ok_iff, h'.truncate_congr h hchain, hconfig, hgrammar, hmain, h'.document, ← h.document]
  exact ⟨hvalid, rfl⟩

/-- The main scope of a locator looks the same in another one: handles, entries and query. -/
structure SameMain (l l' : Locator) : Prop where
  handles : l'.handles .main = l.handles .main
  entries : l'.entries .main = l.entries .main
  query : l'.query .main = l.query .main

/-- A relative pick leaves the main path as it is. -/
theorem Layout.sameMain_pickRelative {picks : Picks} (h : Layout d l picks) (hm : l.pickRelative n = .ok m) :
    SameMain l m := by
  have hget := fun i (hi : i ∈ l.main) => h.get?_pickRelative hm hi
  obtain ⟨-, rfl⟩ := pickRelative_eq_ok_iff.1 hm
  refine ⟨rfl, ?_, ?_⟩
  · refine List.filterMap_congr fun i hi => ?_
    rw [hget i hi]
  · unfold query render
    refine congrArg (fun descriptors => String.ofList (renderChars _ descriptors _ _)) ?_
    exact List.filterMap_congr hget

/-- What picks forget and what they keep, over any two histories of one document. A main pick keeps the grammar
only, so it leads both, and a new locator too, to the same state. A relative pick keeps the main scope too, so it leads
histories that agree in that to the same state. A refused pick is refused in every state and changes nothing that
comes later. -/
theorem pick_forgets (hd : d.Built) (config : Config) (ops ops' : List Operation) (n : NodeId) :
    let l := (start d config).run ops
    let l' := (start d config).run ops'
    (∀ m, l.pickMain n = .ok m →
      ((start d config).setGrammar l.grammar).pickMain n = .ok m ∧
        (l'.grammar = l.grammar → l'.pickMain n = .ok m)) ∧
    (∀ m, l.pickRelative n = .ok m →
      SameMain l m ∧
        (l'.grammar = l.grammar → l'.entries .main = l.entries .main → l'.pickRelative n = .ok m)) ∧
    ∀ scope e, l.pick scope n = .error e →
      l'.pick scope n = .error e ∧ l.step (.pick scope n) = l := by
  intro l l'
  have h : Layout d l (Picks.ofRun d ops) := layout_run hd.sound config ops
  have h' : Layout d l' (Picks.ofRun d ops') := layout_run hd.sound config ops'
  obtain ⟨hdocument, hconfig⟩ : l.document = d ∧ l.config = config := document_run d config ops
  obtain ⟨hdocument', hconfig'⟩ : l'.document = d ∧ l'.config = config := document_run d config ops'
  refine ⟨fun m hm => ⟨?_, fun hgrammar => ?_⟩, fun m hm => ⟨h.sameMain_pickRelative hm, ?_⟩, ?_⟩
  · exact pickMain_congr hdocument.symm hconfig.symm rfl hm
  · exact pickMain_congr (hdocument'.trans hdocument.symm) (hconfig'.trans hconfig.symm) hgrammar hm
  · intro hgrammar hentries
    refine h.pickRelative_congr h' (hconfig'.trans hconfig.symm) hgrammar ?_ hm
    rw [descriptorsOf_eq_map_entries, descriptorsOf_eq_map_entries, hentries]
  · intro scope e he
    refine ⟨?_, step_of_error ((perform_pick l scope n).trans he)⟩
    rw [pick_eq_error_iff, hdocument', ← hdocument]
    exact pick_eq_error_iff.1 he

/-- The same main pick and refinements as in `pageOperations`, with another relative pick and the grammar set first. -/
def otherOperations : List Operation :=
  [.setGrammar .xpath, .pickMain 5, .toggle .main 2 "title" "it's" true, .pickRelative 4, .pickMain 5,
    .toggle .main 2 "title" "it's" true, .toggle .main 1 "class" "card" true]

/-- On the page, a new main pick forgets the toggles, and a refused one leaves everything as it is. -/
theorem pick_forgets_page :
    let l := (start page {}).run pageOperations
    let l' := (start page {}).run otherOperations
    l.registry ≠ l'.registry ∧ (∃ m, l.pickMain 4 = .ok m ∧ l'.pickMain 4 = .ok m) ∧
      (∃ m, l.pickRelative 4 = .ok m ∧ l'.pickRelative 4 = .ok m ∧ SameMain l m) ∧
      ∃ e, l.pickRelative 1 = .error e ∧ l'.pickRelative 1 = .error e ∧ l.step (.pickRelative 1) = l := by
  intro l l'
  obtain ⟨hmain, hrelative, -⟩ := pick_forgets built_page {} pageOperations otherOperations 4
  obtain ⟨-, -, hrefused⟩ := pick_forgets built_page {} pageOperations otherOperations 1
  have hgrammar : l'.grammar = l.grammar := by decide
  have hentries : l'.entries .main = l.entries .main := by decide +kernel
  have hdocument : l.document = page := (document_run page {} pageOperations).1
  have hvalid : validatePick l.document 4 = .ok () := hdocument ▸ by decide
  have hinvalid : validatePick l.document 1 = .error (.invalidPick .documentElement) := hdocument ▸ by decide
  obtain ⟨picked, hpicked⟩ : ∃ m, l.pickMain 4 = .ok m := ⟨_, pickMain_eq_ok_iff.2 ⟨hvalid, rfl⟩⟩
  obtain ⟨beside, hbeside⟩ : ∃ m, l.pickRelative 4 = .ok m := ⟨_, pickRelative_eq_ok_iff.2 ⟨hvalid, rfl⟩⟩
  have he : l.pick .relative 1 = .error (.invalidPick .documentElement) := pick_eq_error_iff.2 hinvalid
  obtain ⟨hsame, hforgets⟩ := hrelative beside hbeside
  refine ⟨by decide, ⟨picked, hpicked, (hmain picked hpicked).2 hgrammar⟩,
    ⟨beside, hbeside, hforgets hgrammar hentries, hsame⟩, ⟨_, he, hrefused .relative _ he⟩⟩

end ElementLocator.Locator
