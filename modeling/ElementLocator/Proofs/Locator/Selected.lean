import ElementLocator.Proofs.Locator.PathMeaning
import ElementLocator.Proofs.Locator.SelectorMeaning

/-!
# All that a query of a trail selects

The written query of a trail is read in both grammars, and the node at the end of the trail is among all that it
selects. A location path selects only what follows the trail, and a selector only what matches it.
-/

namespace ElementLocator

namespace Document

/-- All tags are plain names. -/
def PlainTags (d : Document) : Prop := ∀ n tag, d.localName? n = some tag → Text.IsPlain tag

/-- Plain tags are told over the nodes of the document. -/
theorem plainTags_iff {d : Document} : d.PlainTags ↔ ∀ n < d.size, ∀ tag ∈ d.localName? n, Text.IsPlain tag :=
  ⟨fun h n _ tag htag => h n tag htag, fun h n tag htag =>
    h n (lt_size_of_isElement (isElement_of_localName htag)) tag htag⟩

instance (d : Document) : Decidable d.PlainTags := decidable_of_iff _ plainTags_iff.symm

end Document

namespace Locator

open Css (Complex)

variable {d : Document} {start leaf n m p anchor : NodeId} {descriptors : List Descriptor} {x first : Descriptor}
  {others : List Descriptor} {config : Config} {ops : List Operation} {anchoring : Anchoring}

/-! ### All nodes of a query -/

/-- All nodes that a query selects from an anchor, in document order. A CSS query is confined to the inside of the
anchor. -/
def selectFrom (d : Document) (anchor : NodeId) (query : String) : Grammar → Except Error (List NodeId)
  | .css => ((Css.parse query).map fun list =>
      (d.descendantElements anchor).filter fun n => Css.matchesWithin d (some anchor) n list).mapError
        fun e => .malformedQuery query (.css e)
  | .xpath => (XPath.select d anchor query).mapError fun e => .malformedQuery query (.xpath e)

/-- A query that is not blank resolves to the first node that it selects. -/
theorem resolveFrom_eq {query : String} (hblank : Text.isBlank query = false) (grammar : Grammar) :
    resolveFrom d anchor query grammar = (selectFrom d anchor query grammar).map List.head? := by
  unfold resolveFrom
  rw [hblank, if_neg Bool.false_ne_true]
  cases grammar with
  | css =>
    simp only [Css.queryWithin, selectFrom]
    cases Css.parse query with
    | error e => rfl
    | ok list =>
      simp only [bind, Except.bind, Except.mapError, Except.map, List.head?_filter]
  | xpath =>
    simp only [XPath.selectFirstFrom, selectFrom]
    cases XPath.select d anchor query <;> rfl

/-- A written query begins with a slash, a point or a letter. -/
theorem isBlank_renderChars (hne : descriptors ≠ []) (hwritable : ∀ x ∈ descriptors, x.Writable d)
    (grammar : Grammar) (anchoring : Anchoring) :
    Text.isBlank (String.ofList (renderChars d descriptors grammar anchoring)) = false := by
  obtain ⟨x, rest, rfl⟩ := List.exists_cons_of_ne_nil hne
  obtain ⟨c, later, hshape, hc⟩ : ∃ c later, renderChars d (x :: rest) grammar anchoring = c :: later ∧
      Text.isBlankChar c = false := by
    cases grammar with
    | xpath => cases anchoring <;> exact ⟨_, _, rfl, by decide⟩
    | css =>
      have hplain := (hwritable x List.mem_cons_self).isPlainChars_tagOf
      obtain ⟨c, later, htag, hc, -⟩ := Text.isPlainChars_iff.1 hplain
      have hstep : cssStep d x = c :: (later ++ position d x.node ":nth-of-type(" ")" ++
          x.attributes.flatMap fun entry => cssCondition entry.1 entry.2) := by
        rw [cssStep, htag]
        rfl
      have htext : renderChars d (x :: rest) .css anchoring = [' '].intercalate ((x :: rest).map (cssStep d)) := by
        cases anchoring <;> rfl
      rw [htext, List.map_cons, hstep, List.intercalate_cons_cons_left]
      exact ⟨c, _, rfl, Text.isBlankChar_of_isAlpha hc⟩
  rw [Text.isBlank, String.toList_ofList, hshape, List.all_cons, hc]
  rfl

/-! ### Inside of the start -/

/-- The described nodes stand below where they lead from. -/
theorem Leads.below (hd : d.Sound) (h : Leads d descriptors p n) :
    ∀ x ∈ descriptors, p ∈ d.nodes.lineage x.node ∧ x.node ≠ p := by
  induction descriptors generalizing p with
  | nil => nofun
  | cons y rest ih =>
    obtain ⟨hy, hrest⟩ := h
    have hparent : d.nodes.parent? y.node = some p := hy
    have hnot := hd.wellFormed.not_mem_lineage_parent hparent
    intro x hx
    rcases List.mem_cons.1 hx with rfl | hx
    · refine ⟨hd.wellFormed.parent_mem_lineage hparent, fun heq => hnot ?_⟩
      rw [heq]
      exact Forest.WellFormed.self_mem_lineage d.nodes p
    · obtain ⟨habove, -⟩ := ih hrest x hx
      refine ⟨hd.wellFormed.mem_lineage_trans (hd.wellFormed.parent_mem_lineage hparent) habove, fun heq => hnot ?_⟩
      rwa [heq] at habove

/-- The document element is an element, and its parent is the root. -/
theorem parent_of_documentElement (hd : d.Sound) (hp : d.documentElement? = some p) :
    d.parent? p = some Document.root ∧ d.isElement p = true :=
  hd.mem_elementChildren_iff.1 (List.mem_of_head? hp)

/-- The nodes of a trail are elements below where its query starts to search. -/
theorem Trail.below (hd : d.Sound) (h : Trail d start descriptors leaf) :
    ∀ x ∈ descriptors, start ∈ d.nodes.lineage x.node ∧ x.node ≠ start := by
  obtain ⟨p, hleads, rfl | ⟨rfl, hp⟩⟩ := h.leads
  · exact hleads.below hd
  · intro x hx
    have hroot := hd.wellFormed.parent_mem_lineage (parent_of_documentElement hd hp).1
    refine ⟨hd.wellFormed.mem_lineage_trans hroot (hleads.below hd x hx).1, fun heq => ?_⟩
    have helement := h.element x hx
    rw [heq, hd.isElement_root] at helement
    cases helement

/-- The leaf of a trail is below its start. -/
theorem Trail.leaf_below (hd : d.Sound) (h : Trail d start descriptors leaf) :
    leaf ∈ d.descendantElements start := by
  obtain ⟨p, hleads, -⟩ := h.leads
  obtain ⟨x, hx, rfl⟩ := hleads.exists_node h.ne_nil
  exact hd.mem_descendantElements_iff.2 ⟨h.below hd x hx, h.element x hx⟩

/-! ### Both grammars -/

/-- The descriptors can be written, and their values are offered by the nodes. -/
structure Legible (d : Document) (descriptors : List Descriptor) : Prop where
  writable : ∀ x ∈ descriptors, x.Writable d
  offered : ∀ x ∈ descriptors, x.Offered d

/-- A written location path selects the elements that its steps reach. -/
theorem selectFrom_path (hne : descriptors ≠ []) (hlegible : Legible d descriptors) (anchor : NodeId)
    (anchoring : Anchoring) :
    selectFrom d anchor (String.ofList (renderChars d descriptors .xpath anchoring)) .xpath =
      .ok (((pathOf d descriptors anchoring).select d anchor).filter d.isElement) := by
  rw [selectFrom, XPath.select, parse_path hne hlegible.writable]
  rfl

/-- A written selector selects the elements inside the anchor that match it there. -/
theorem selectFrom_selector (hlegible : Legible d (first :: others)) (anchor : NodeId) (anchoring : Anchoring) :
    selectFrom d anchor (String.ofList (renderChars d (first :: others) .css anchoring)) .css =
      .ok ((d.descendantElements anchor).filter fun n =>
        Css.matchesWithin d (some anchor) n [selectorOf d first others]) := by
  rw [selectFrom, parse_selector (fun x hx => (hlegible.writable x hx).selectable) hlegible.offered]
  rfl

/-- The location path of a trail selects the node at its end, and nothing that does not follow the trail. -/
theorem Trail.select_path (hd : d.Sound) (hfew : d.FewSiblings) (h : Trail d start descriptors leaf)
    (hlegible : Legible d descriptors) (hanchoring : anchoring = .absolute → start = Document.root) :
    ∃ found, selectFrom d start (String.ofList (renderChars d descriptors .xpath anchoring)) .xpath = .ok found ∧
      found.Sublist d.elements ∧ leaf ∈ found ∧
      ∀ n ∈ found, ∃ m, start ∈ d.nodes.lineage m ∧ Follows d descriptors m n := by
  have hmem : ∀ n, n ∈ (pathOf d descriptors anchoring).select d start ↔ _ := fun n =>
    mem_select_pathOf hd h.start_eq hanchoring
  have hselect := select_pathOf hd h.attached descriptors anchoring
  have hleaf := h.leaf_below hd
  refine ⟨d.elements.filter (· ∈ (pathOf d descriptors anchoring).select d start), ?_, List.filter_sublist, ?_, ?_⟩
  · rw [selectFrom_path h.ne_nil hlegible, hselect]
  · refine List.mem_filter.2 ⟨(hd.descendantElements_sublist h.attached).subset hleaf, ?_⟩
    rw [decide_eq_true_eq, hmem]
    obtain ⟨p, hleads, hp⟩ := h.leads
    refine ⟨p, ?_, hleads.reached hd hfew hlegible.writable fun x hx =>
      (hlegible.offered x hx).meets (hlegible.writable x hx).lower⟩
    rcases hp with rfl | ⟨rfl, hp⟩
    · exact .inl rfl
    · obtain ⟨hparent, helement⟩ := parent_of_documentElement hd hp
      refine .inr (hd.mem_descendantElements_iff.2 ⟨⟨hd.wellFormed.parent_mem_lineage hparent, ?_⟩, helement⟩)
      rintro rfl
      rw [hd.isElement_root] at helement
      cases helement
  · intro n hn
    obtain ⟨m, hm, hreached⟩ := (hmem n).1 (of_decide_eq_true (List.mem_filter.1 hn).2)
    refine ⟨m, ?_, follows_of_reached hd hfew hlegible.writable hreached⟩
    rcases hm with rfl | hm
    · exact Forest.WellFormed.self_mem_lineage d.nodes m
    · exact (hd.mem_descendantElements_iff.1 hm).1.1

/-- The selector of a trail selects the node at its end, and nothing that does not match it. -/
theorem Trail.select_selector (hd : d.Sound) (h : Trail d start (first :: others) leaf)
    (hlegible : Legible d (first :: others)) (hescapable : ∀ x ∈ first :: others, x.Escapable d)
    (anchoring : Anchoring) :
    ∃ found, selectFrom d start (String.ofList (renderChars d (first :: others) .css anchoring)) .css = .ok found ∧
      found.Sublist d.elements ∧ leaf ∈ found ∧
      ∀ n ∈ found, n ∈ d.descendantElements start ∧
        Complex.Matches d (some start) (selectorOf d first others) n := by
  refine ⟨(d.descendantElements start).filter fun n =>
    Css.matchesWithin d (some start) n [selectorOf d first others], selectFrom_selector hlegible start anchoring,
    ?_, ?_, ?_⟩
  · exact List.filter_sublist.trans (hd.descendantElements_sublist h.attached)
  · refine List.mem_filter.2 ⟨h.leaf_below hd, (Css.matchesWithin_iff hd).2 ?_⟩
    obtain ⟨p, hleads, -⟩ := h.leads
    refine hleads.matches hd hlegible.writable hlegible.offered hescapable fun x hx heq => ?_
    exact (h.below hd x hx).2 (Option.some.inj heq).symm
  · intro n hn
    obtain ⟨hbelow, hn⟩ := List.mem_filter.1 hn
    exact ⟨hbelow, (Css.matchesWithin_iff hd).1 hn⟩

/-! ### Runs -/

/-- Where a toggled name is allowed, it is plain. -/
def PlainChoices (config : Config) (ops : List Operation) : Prop :=
  ∀ op ∈ ops, ∀ choice ∈ op.toggled?, config.allows choice.1 = true → Text.IsPlain choice.1

instance (config : Config) (ops : List Operation) : Decidable (PlainChoices config ops) :=
  inferInstanceAs (Decidable (∀ op ∈ ops, _))

/-- No toggled value contains U+0000. -/
def NoNul (ops : List Operation) : Prop := ∀ op ∈ ops, ∀ choice ∈ op.toggled?, '\x00' ∉ choice.2.toList

instance (ops : List Operation) : Decidable (NoNul ops) := inferInstanceAs (Decidable (∀ op ∈ ops, _))

/-- A name is allowed in any letter case or in none. -/
theorem allows_lower (config : Config) (name : String) : config.allows (Text.lower name) = config.allows name := by
  simp only [Config.allows, Text.equalIgnoringCase, Text.lower_lower]

/-- If all allowed names are plain, so are the toggled names among them. -/
theorem plainChoices_of_attributes (hplain : ∀ name ∈ config.attributes, Text.IsPlain name)
    (ops : List Operation) : PlainChoices config ops := by
  intro op _ choice _ hallowed
  obtain ⟨allowed, hmem, heq⟩ := List.any_eq_true.1 hallowed
  rw [← Text.isPlain_lower, ← Text.equalIgnoringCase_iff.1 heq, Text.isPlain_lower]
  exact hplain allowed hmem

/-- Names are taken into a descriptor in lower case. -/
theorem Descriptor.Grounded.lower (h : x.Grounded d config ops) :
    ∀ entry ∈ x.attributes, Text.lower entry.1 = entry.1 := by
  intro entry hentry
  obtain ⟨v, hv⟩ := List.exists_mem_of_ne_nil _ (h.values_ne_nil entry hentry)
  obtain ⟨scope, index, written, -, hwritten⟩ := h.chosen entry hentry v hv
  rw [← hwritten]
  exact Text.lower_lower written

/-- A grounded descriptor can be written if its tag and the chosen names are plain. -/
theorem Descriptor.Grounded.writable (h : x.Grounded d config ops)
    (hplain : ∀ tag, d.localName? x.node = some tag → Text.IsPlain tag) (hnames : PlainChoices config ops)
    (helement : d.isElement x.node = true) : x.Writable d := by
  have hname : ∀ entry ∈ x.attributes, Text.IsPlain entry.1 := by
    intro entry hentry
    obtain ⟨v, hv⟩ := List.exists_mem_of_ne_nil _ (h.values_ne_nil entry hentry)
    obtain ⟨scope, index, written, hop, hwritten⟩ := h.chosen entry hentry v hv
    have hallowed := h.allowed entry hentry v hv
    rw [← hwritten, allows_lower] at hallowed
    rw [← hwritten]
    exact Text.isPlain_lower.2 (hnames _ hop (written, v) rfl hallowed)
  obtain ⟨tag, htag⟩ := Option.isSome_iff_exists.1 helement
  exact ⟨⟨tag, htag, hplain tag htag⟩, hname, h.lower⟩

/-- A grounded descriptor that can be written can be escaped, as long as siblings are few and the operations are free of
the NUL character. -/
theorem Descriptor.Grounded.escapable (hd : d.Sound) (hfew : d.FewSiblings) (h : x.Grounded d config ops)
    (hwritable : x.Writable d) (hnul : NoNul ops) : x.Escapable d := by
  refine ⟨fun entry hentry v hv => ?_, ?_⟩
  · obtain ⟨scope, index, written, hop, -⟩ := h.chosen entry hentry v hv
    exact hnul _ hop (written, v) rfl
  · exact Nat.le_of_lt_succ (hd.positionalIndex_add_one_lt hfew hwritable.isElement)

/-- The descriptors of a path are among those of the registry. -/
theorem mem_descriptors_of_mem {l : Locator} {scope : Scope} (hx : x ∈ l.descriptorsOf scope) :
    x ∈ l.registry.descriptors := by
  obtain ⟨h, -, hget⟩ := List.mem_filterMap.1 hx
  exact List.mem_of_getElem? hget

/-- The entries of a scope of a run are grounded. -/
theorem grounded_descriptorsOf (d : Document) (config : Config) (ops : List Operation) (scope : Scope) :
    ∀ x ∈ ((Locator.start d config).run ops).descriptorsOf scope, x.Grounded d config ops :=
  fun x hx => grounded_run d config ops x (mem_descriptors_of_mem hx)

/-- No entry of a scope of a run has a name twice. -/
theorem distinct_descriptorsOf (d : Document) (config : Config) (ops : List Operation) (scope : Scope) :
    ∀ x ∈ ((Locator.start d config).run ops).descriptorsOf scope, x.attributes.Distinct :=
  fun x hx => distinct_run d config ops x (mem_descriptors_of_mem hx)

/-- The descriptors of a trail are legible after a run with plain choices. -/
theorem legible_of_trail (htags : d.PlainTags) (hnames : PlainChoices config ops) {scope : Scope}
    (h : Trail d start (((Locator.start d config).run ops).descriptorsOf scope) leaf) :
    Legible d (((Locator.start d config).run ops).descriptorsOf scope) :=
  ⟨fun x hx => (grounded_descriptorsOf d config ops scope x hx).writable (htags x.node) hnames (h.element x hx),
    fun x hx => (grounded_descriptorsOf d config ops scope x hx).offered⟩

/-- The entries of a scope of a run are legible where their tags and the toggled names are plain. -/
theorem legible_run (hd : d.Sound) {scope : Scope}
    (htags : ∀ x ∈ ((Locator.start d config).run ops).descriptorsOf scope, ∀ tag, d.localName? x.node = some tag →
      Text.IsPlain tag)
    (hnames : PlainChoices config ops) : Legible d (((Locator.start d config).run ops).descriptorsOf scope) := by
  have hgrounded := grounded_descriptorsOf d config ops scope
  refine ⟨fun x hx => ?_, fun x hx => (hgrounded x hx).offered⟩
  exact (hgrounded x hx).writable (htags x hx) hnames ((layout_run hd config ops).mem_descriptorsOf hd hx).1

/-- The query of a scope in a grammar writes the descriptors of the scope. -/
theorem query_run (d : Document) (config : Config) (ops : List Operation) (grammar : Grammar) (scope : Scope) :
    (((Locator.start d config).run ops).setGrammar grammar).query scope =
      String.ofList (renderChars d (((Locator.start d config).run ops).descriptorsOf scope) grammar
        (((Locator.start d config).run ops).anchoring scope)) := by
  have hdocument := (document_run d config ops).1
  rw [query, render, setGrammar]
  dsimp only
  rw [hdocument]
  rfl

/-- A query is absolute only where it starts at the document node. -/
theorem startOf_of_absolute {l : Locator} {scope : Scope} (h : l.anchoring scope = .absolute) :
    l.startOf scope = Document.root := by
  cases scope with
  | main => rfl
  | relative =>
    have hanchoring : (if l.hasCommonAncestor then Anchoring.relative else .absolute) = .absolute := h
    split at hanchoring
    · cases hanchoring
    · next hnone =>
      rw [hasCommonAncestor] at hnone
      rw [startOf, anchor?, Option.not_isSome_iff_eq_none.1 hnone]
      rfl

end Locator

end ElementLocator
