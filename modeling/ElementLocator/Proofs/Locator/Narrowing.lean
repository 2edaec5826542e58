import ElementLocator.Proofs.Locator.Resolvable

/-!
# Refinements narrow what is selected

Two locators with the same picks have the same entries, up to the values that refine them. Whatever the query of the
one with more values selects, the query of the other one selects as well, in both grammars. So it only matters which
values are included, and not in which order they were toggled.
-/

namespace ElementLocator.Locator

open Css (Complex Simple)
open XPath (Reached keep)

variable {d : Document} {boundary : Option NodeId} {start n p : NodeId} {x y first first' : Descriptor}
  {descriptors descriptors' others others' : List Descriptor} {anchoring : Anchoring} {config : Config}
  {ops ops' : List Operation} {scope : Scope}

/-! ### More values -/

/-- Every value that is included in the descriptor is included in the other one. -/
def Descriptor.Within (x y : Descriptor) : Prop :=
  ∀ name value, x.includes name value = true → y.includes name value = true

/-- A descriptor includes only values under its names. -/
theorem Descriptor.within_iff :
    x.Within y ↔ ∀ entry ∈ x.attributes, ∀ value ∈ x.values entry.1, y.includes entry.1 value = true := by
  constructor
  · intro h entry _ value hvalue
    exact h entry.1 value (List.contains_iff_mem.2 hvalue)
  · intro h name value hincluded
    have hvalue : value ∈ x.values name := List.contains_iff_mem.1 hincluded
    cases hlookup : x.attributes.lookup name with
    | none =>
      rw [values, hlookup] at hvalue
      cases hvalue
    | some values =>
      obtain ⟨front, back, hattributes, -⟩ := List.lookup_eq_some_iff.1 hlookup
      exact h (name, values) (by simp [hattributes]) value hvalue

instance (x y : Descriptor) : Decidable (x.Within y) := decidable_of_iff _ Descriptor.within_iff.symm

/-- The descriptors are of the same node, and the second one has all the chosen values of the first one. -/
structure Descriptor.Refines (y x : Descriptor) : Prop where
  node : y.node = x.node
  choices : x.choices ⊆ y.choices

/-- A descriptor within another one of the same node is refined by it. -/
theorem Descriptor.Within.refines (h : x.Within y) (hnode : y.node = x.node) (hx : x.attributes.Distinct)
    (hy : y.attributes.Distinct) : y.Refines x := by
  refine ⟨hnode, fun choice hchoice => ?_⟩
  obtain ⟨name, value⟩ := choice
  rw [mem_choices, ← includes_iff hx] at hchoice
  rw [mem_choices, ← includes_iff hy]
  exact h name value hchoice

/-! ### Location paths -/

/-- The conditions of a step are the last that it asks for. -/
theorem mem_from_toStep_iff :
    n ∈ (x.toStep d).from d p ↔
      n ∈ ((placePredicates d x.node).map Prod.snd).foldl (keep d) ((XPath.Axis.child.nodes d p).filter fun m =>
        (XPath.NodeTest.name (String.ofList (tagOf d x.node))).passes d m) ∧ x.Meets d n := by
  rw [XPath.Step.from, Descriptor.toStep, Descriptor.predicates, List.map_append, List.foldl_append, mem_keep_choices]
  rfl

/-- A refined descriptor selects no more nodes from a place. -/
theorem Descriptor.Refines.from_subset (h : y.Refines x) : (y.toStep d).from d p ⊆ (x.toStep d).from d p := by
  intro n hn
  rw [mem_from_toStep_iff, h.node] at hn
  rw [mem_from_toStep_iff]
  exact ⟨hn.1, fun choice hchoice => hn.2 choice (h.choices hchoice)⟩

/-- What is reached with more values is reached with fewer. -/
theorem reached_of_refines (h : List.Forall₂ Descriptor.Refines descriptors' descriptors)
    (hn : Reached d (descriptors'.map (Descriptor.toStep d)) p n) :
    Reached d (descriptors.map (Descriptor.toStep d)) p n := by
  induction h generalizing p with
  | nil => exact hn
  | cons hfirst _ ih =>
    obtain ⟨k, hk, hn⟩ := hn
    exact ⟨k, hfirst.from_subset hk, ih hn⟩

/-! ### Selectors -/

/-- The condition for one included value. -/
def conditionPiece (name value : String) : Css.Piece :=
  if name = "class" then classPiece value else if name = "id" then idPiece value else attributePiece name value

/-- Each attribute piece is the piece of one of the values. -/
theorem exists_of_mem_attributePieces {name : String} {values : List String} {piece : Css.Piece}
    (h : piece ∈ attributePieces name values) : ∃ value ∈ values, piece = conditionPiece name value := by
  unfold conditionPiece
  unfold attributePieces at h
  split at h
  · next hclass =>
    obtain ⟨value, hvalue, rfl⟩ := List.mem_map.1 h
    exact ⟨value, hvalue, (if_pos hclass).symm⟩
  · next hclass =>
    split at h
    · cases h
    · next value more =>
      refine ⟨value, List.mem_cons_self, ?_⟩
      rw [if_neg hclass]
      split at h
      · next hid => rw [if_pos hid, List.mem_singleton.1 h]
      · next hid => rw [if_neg hid, List.mem_singleton.1 h]

/-- Every included value has its condition, for an attribute other than `class` offers only one. -/
theorem conditionPiece_mem {name value : String} {values : List String} (hlower : Text.lower name = name)
    (hoffered : ∀ v ∈ values, v ∈ candidateValues d n name) (hvalue : value ∈ values) :
    conditionPiece name value ∈ attributePieces name values := by
  unfold conditionPiece attributePieces
  split
  · exact List.mem_map_of_mem hvalue
  · next hclass =>
    have hwhole : ∀ v ∈ values, d.attribute? n name = some v := fun v hv =>
      ((mem_candidateValues hlower (hoffered v hv)).2.resolve_left fun h => hclass h.1).2
    cases values with
    | nil => cases hvalue
    | cons v more =>
      have hv := hwhole v List.mem_cons_self
      rw [hwhole value hvalue] at hv
      cases hv
      dsimp only
      split <;> exact List.mem_singleton_self _

/-- The compound of a descriptor with more values has all conditions of the other one. -/
theorem Descriptor.Refines.conditions_subset (h : y.Refines x) (hwritable : y.Writable d) (hoffered : y.Offered d) :
    (x.toCompound d).conditions ⊆ (y.toCompound d).conditions := by
  intro c hc
  rw [conditions_toCompound, List.mem_cons, List.mem_append] at hc ⊢
  rw [h.node]
  refine hc.imp_right fun hc => hc.imp_right fun hc => ?_
  obtain ⟨⟨name, values⟩, hentry, hc⟩ := List.mem_flatMap.1 hc
  obtain ⟨piece, hpiece, hc⟩ := List.mem_flatMap.1 hc
  obtain ⟨value, hvalue, rfl⟩ := exists_of_mem_attributePieces hpiece
  obtain ⟨values', hentry', hvalue'⟩ := mem_choices.1 (h.choices (mem_choices.2 ⟨values, hentry, hvalue⟩))
  have hpiece' := conditionPiece_mem (hwritable.lower _ hentry') (hoffered _ hentry') hvalue'
  exact List.mem_flatMap.2 ⟨(name, values'), hentry', List.mem_flatMap.2 ⟨_, hpiece', hc⟩⟩

/-- A refined descriptor narrows the compound, as its further conditions only add to those of the other. -/
theorem Descriptor.Refines.narrows (h : y.Refines x) (hwritable : y.Writable d) (hoffered : y.Offered d) :
    Css.Compound.Narrows d boundary (y.toCompound d) (x.toCompound d) := by
  intro n hn
  rw [Css.Compound.MetBy, allHold_iff] at hn ⊢
  exact fun c hc => hn c (h.conditions_subset hwritable hoffered hc)

/-- What matches with more values matches with fewer. -/
theorem matches_of_refines (h : List.Forall₂ Descriptor.Refines (first' :: others') (first :: others))
    (hlegible : Legible d (first' :: others')) (hn : Complex.Matches d boundary (selectorOf d first' others') n) :
    Complex.Matches d boundary (selectorOf d first others) n := by
  have hrefines := (List.forall₂_and_left (first' :: others') (first :: others)).2
    ⟨fun y hy => And.intro (hlegible.writable y hy) (hlegible.offered y hy), h⟩
  have hcompounds : List.Forall₂ (Css.Compound.Narrows d boundary)
      ((first' :: others').map (Descriptor.toCompound d)) ((first :: others).map (Descriptor.toCompound d)) := by
    rw [List.forall₂_map_left_iff, List.forall₂_map_right_iff]
    exact hrefines.imp fun y x hyx => hyx.2.narrows hyx.1.1 hyx.1.2
  exact Complex.Matches.mono (fun _ _ hm => hm) hcompounds hn

/-! ### What is selected -/

/-- The query of descriptors with more values selects part of what the other query selects. -/
theorem selectFrom_sublist (hd : d.Sound) (hattached : Document.root ∈ d.nodes.lineage start)
    (hstart : start = Document.root ∨ d.isElement start = true)
    (hanchoring : anchoring = .absolute → start = Document.root) (hne : descriptors' ≠ [])
    (h : List.Forall₂ Descriptor.Refines descriptors' descriptors) (hlegible : Legible d descriptors)
    (hlegible' : Legible d descriptors') (grammar : Grammar) {found found' : List NodeId}
    (hfound : selectFrom d start (String.ofList (renderChars d descriptors grammar anchoring)) grammar = .ok found)
    (hfound' : selectFrom d start (String.ofList (renderChars d descriptors' grammar anchoring)) grammar =
      .ok found') : found'.Sublist found := by
  obtain ⟨first', others', rfl⟩ := List.exists_cons_of_ne_nil hne
  obtain ⟨first, others, hfirst, hothers, rfl⟩ := List.forall₂_cons_left_iff.1 h
  cases grammar with
  | xpath =>
    rw [selectFrom_path (List.cons_ne_nil _ _) hlegible, select_pathOf hd hattached] at hfound
    rw [selectFrom_path hne hlegible', select_pathOf hd hattached] at hfound'
    cases hfound
    cases hfound'
    apply List.monotone_filter_right
    intro n hn
    rw [decide_eq_true_eq, mem_select_pathOf hd hstart hanchoring] at hn ⊢
    obtain ⟨m, hm, hreached⟩ := hn
    exact ⟨m, hm, reached_of_refines h hreached⟩
  | css =>
    rw [selectFrom_selector hlegible] at hfound
    rw [selectFrom_selector hlegible'] at hfound'
    cases hfound
    cases hfound'
    apply List.monotone_filter_right
    intro n hn
    rw [Css.matchesWithin_iff hd] at hn ⊢
    exact matches_of_refines h hlegible' hn

/-! ### Locators with the same picks -/

/-- Every value that is included in an entry of the scope is included in the entry of the other locator. -/
def RefinedBy (l l' : Locator) (scope : Scope) : Prop :=
  ∀ index x y, l.descriptor? scope index = some x → l'.descriptor? scope index = some y → x.Within y

/-- A locator is refined by another exactly if every descriptor of the path is within the one at the same place. -/
theorem refinedBy_iff {l l' : Locator} : RefinedBy l l' scope ↔
    ∀ index < (l.handles scope).length, ∀ x ∈ l.descriptor? scope index, ∀ y ∈ l'.descriptor? scope index,
      x.Within y := by
  constructor
  · exact fun h index _ x hx y hy => h index x y hx hy
  · intro h index x y hx hy
    refine h index ?_ x hx y hy
    by_contra hle
    rw [descriptor?, List.getElem?_eq_none (Nat.le_of_not_lt hle)] at hx
    cases hx

instance (l l' : Locator) (scope : Scope) : Decidable (RefinedBy l l' scope) :=
  decidable_of_iff _ refinedBy_iff.symm

namespace Layout

variable {l l' : Locator} {picks : Picks}

/-- The descriptor at a place is the one that the handle there stands for. -/
theorem descriptor?_eq (h : Layout d l picks) (scope : Scope) (index : Nat) :
    l.descriptor? scope index = (l.descriptorsOf scope)[index]? := by
  have hall := h.forall₂_descriptorsOf scope
  rw [descriptor?]
  generalize l.handles scope = handles at hall ⊢
  generalize l.descriptorsOf scope = descriptors at hall ⊢
  induction hall generalizing index with
  | nil => rfl
  | cons hx _ ih =>
    cases index with
    | zero => exact hx
    | succ index => exact ih index

/-- The picks settle the paths and which node each handle stands for. -/
theorem eq_of_picks (h : Layout d l picks) (h' : Layout d l' picks) :
    l'.main = l.main ∧ l'.branch = l.branch ∧ ∀ i, l'.registry.node? i = l.registry.node? i := by
  refine ⟨h'.main.trans h.main.symm, h'.branch.trans h.branch.symm, fun i => ?_⟩
  rw [Registry.node?_eq, Registry.node?_eq, h'.nodes, h.nodes]

/-- Locators with the same picks start their paths at the same place. -/
theorem startOf_eq_of_picks (h : Layout d l picks) (h' : Layout d l' picks) (scope : Scope) :
    l'.startOf scope = l.startOf scope := by
  cases scope with
  | main => rfl
  | relative => rw [startOf, startOf, h'.anchor?_eq, h.anchor?_eq]

/-- Locators with the same picks anchor their paths alike. -/
theorem anchoring_eq_of_picks (h : Layout d l picks) (h' : Layout d l' picks) (scope : Scope) :
    l'.anchoring scope = l.anchoring scope := by
  cases scope with
  | main => rfl
  | relative => rw [anchoring, anchoring, hasCommonAncestor, hasCommonAncestor, (h.eq_of_picks h').2.1]

/-- Locators with the same picks have descriptors of the same nodes. -/
theorem map_node_eq_of_picks (h : Layout d l picks) (h' : Layout d l' picks) (scope : Scope) :
    (l'.descriptorsOf scope).map Descriptor.node = (l.descriptorsOf scope).map Descriptor.node := by
  obtain ⟨hmain, hbranch, hnode⟩ := h.eq_of_picks h'
  have hhandles : l'.handles scope = l.handles scope := by
    cases scope with
    | main => exact hmain
    | relative => rw [handles, handles, hbranch]
  rw [map_node_descriptorsOf, map_node_descriptorsOf, nodesOf, nodesOf, hhandles]
  exact congrArg (List.filterMap · (l.handles scope)) (funext hnode)

/-- With the same picks, a locator in which more is included has descriptors with more values. -/
theorem forall₂_refines (h : Layout d l picks) (h' : Layout d l' picks)
    (hdistinct : ∀ x ∈ l.descriptorsOf scope, x.attributes.Distinct)
    (hdistinct' : ∀ y ∈ l'.descriptorsOf scope, y.attributes.Distinct) (hmore : RefinedBy l l' scope) :
    List.Forall₂ Descriptor.Refines (l'.descriptorsOf scope) (l.descriptorsOf scope) := by
  have hnodes := h.map_node_eq_of_picks h' scope
  rw [List.forall₂_iff_get]
  refine ⟨by simpa using congrArg List.length hnodes, fun i hi' hi => ?_⟩
  have hx : l.descriptor? scope i = some (l.descriptorsOf scope)[i] := by
    rw [h.descriptor?_eq, List.getElem?_eq_getElem hi]
  have hy : l'.descriptor? scope i = some (l'.descriptorsOf scope)[i] := by
    rw [h'.descriptor?_eq, List.getElem?_eq_getElem hi']
  have hnode : (l'.descriptorsOf scope)[i].node = (l.descriptorsOf scope)[i].node := by
    have heq := congrArg (fun nodes => nodes[i]?) hnodes
    simpa [hi, hi'] using heq
  exact (hmore i _ _ hx hy).refines hnode (hdistinct _ (List.getElem_mem hi)) (hdistinct' _ (List.getElem_mem hi'))

end Layout

/-! ### Runs -/

/-- Runs with the same picked nodes have the same picks. -/
theorem ofRun_eq (hd : d.Sound) (hpicks : ∀ scope, ((Locator.start d config).run ops).leaf? scope =
    ((Locator.start d config).run ops').leaf? scope) : Picks.ofRun d ops = Picks.ofRun d ops' := by
  have hof : ∀ scope, (Picks.ofRun d ops).of scope = (Picks.ofRun d ops').of scope := by
    intro scope
    rw [← (layout_run hd config ops).leaf?_eq, ← (layout_run hd config ops').leaf?_eq, hpicks]
  have hmain := hof .main
  have hrelative := hof .relative
  generalize Picks.ofRun d ops = picks at hmain hrelative
  generalize Picks.ofRun d ops' = picks' at hmain hrelative
  cases picks
  cases picks'
  exact congrArg₂ Picks.mk hmain hrelative

/-- After two runs with the same picks, the query of the locator in which more is included selects part of what the
other one selects, in both grammars; if the same is included, both select the same nodes. -/
theorem selected_run_sublist (hd : d.Built) (htags : d.PlainTags)
    (hnames : ∀ name ∈ config.attributes, Text.IsPlain name)
    (hpicks : ∀ scope, ((Locator.start d config).run ops).leaf? scope =
      ((Locator.start d config).run ops').leaf? scope) (scope : Scope) (grammar : Grammar) :
    ∃ found found', (((Locator.start d config).run ops).setGrammar grammar).selected scope = .ok found ∧
      (((Locator.start d config).run ops').setGrammar grammar).selected scope = .ok found' ∧
      (RefinedBy ((Locator.start d config).run ops) ((Locator.start d config).run ops') scope →
        found'.Sublist found ∧
        (RefinedBy ((Locator.start d config).run ops') ((Locator.start d config).run ops) scope →
          found' = found)) := by
  have hlayout := layout_run hd.sound config ops
  have hlayout' := layout_run hd.sound config ops'
  rw [← ofRun_eq hd.sound hpicks] at hlayout'
  have hlegible : Legible d (((Locator.start d config).run ops).descriptorsOf scope) :=
    legible_run hd.sound (fun x _ => htags x.node) (plainChoices_of_attributes hnames ops)
  have hlegible' : Legible d (((Locator.start d config).run ops').descriptorsOf scope) :=
    legible_run hd.sound (fun x _ => htags x.node) (plainChoices_of_attributes hnames ops')
  have hdistinct := distinct_descriptorsOf d config ops scope
  have hdistinct' := distinct_descriptorsOf d config ops' scope
  have hnodes := hlayout.map_node_eq_of_picks hlayout' scope
  by_cases hnil : ((Locator.start d config).run ops).descriptorsOf scope = []
  · have hnil' : ((Locator.start d config).run ops').descriptorsOf scope = [] := by simpa [hnil] using hnodes
    exact ⟨[], [], selected_run_of_nil grammar hnil, selected_run_of_nil grammar hnil', fun _ =>
      ⟨List.Sublist.refl _, fun _ => rfl⟩⟩
  · have hne' : ((Locator.start d config).run ops').descriptorsOf scope ≠ [] := fun hnil' =>
      hnil (by simpa [hnil'] using hnodes.symm)
    obtain ⟨hattached, hstart⟩ := hlayout.startOf_attached hd.sound scope
    rw [selected_run_of_ne_nil grammar hnil hlegible, selected_run_of_ne_nil grammar hne' hlegible',
      hlayout.startOf_eq_of_picks hlayout', hlayout.anchoring_eq_of_picks hlayout']
    obtain ⟨found, hfound⟩ := exists_selectFrom hnil hlegible (((Locator.start d config).run ops).startOf scope)
      grammar (((Locator.start d config).run ops).anchoring scope)
    obtain ⟨found', hfound'⟩ := exists_selectFrom hne' hlegible' (((Locator.start d config).run ops).startOf scope)
      grammar (((Locator.start d config).run ops).anchoring scope)
    refine ⟨found, found', hfound, hfound', fun hmore => ?_⟩
    have hsublist : found'.Sublist found :=
      selectFrom_sublist hd.sound hattached hstart (fun habsolute => startOf_of_absolute habsolute) hne'
        (hlayout.forall₂_refines hlayout' hdistinct hdistinct' hmore) hlegible hlegible' grammar hfound hfound'
    refine ⟨hsublist, fun hless => hsublist.antisymm ?_⟩
    exact selectFrom_sublist hd.sound hattached hstart (fun habsolute => startOf_of_absolute habsolute) hnil
      (hlayout'.forall₂_refines hlayout hdistinct' hdistinct hless) hlegible' hlegible grammar hfound' hfound

/-- The picks of the page with one refinement. -/
def coarseOperations : List Operation :=
  [.pickMain 5, .pickRelative 6, .toggle .main 1 "class" "card" true]

/-- On the page, the refined run selects a part of what the coarse run selects. -/
theorem selected_run_sublist_page :
    ∃ found found', (((Locator.start page {}).run coarseOperations).setGrammar .css).selected .main = .ok found ∧
      (((Locator.start page {}).run pageOperations).setGrammar .css).selected .main = .ok found' ∧
      found'.Sublist found := by
  have hpicks : ∀ scope, ((Locator.start page {}).run coarseOperations).leaf? scope =
      ((Locator.start page {}).run pageOperations).leaf? scope := by
    intro scope
    cases scope <;> decide
  have hmore : RefinedBy ((Locator.start page {}).run coarseOperations) ((Locator.start page {}).run pageOperations)
      .main := by decide
  obtain ⟨found, found', hfound, hfound', hsublist⟩ :=
    selected_run_sublist built_page (by decide) (by decide) hpicks .main .css
  exact ⟨found, found', hfound, hfound', (hsublist hmore).1⟩

end ElementLocator.Locator
