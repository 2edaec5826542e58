import ElementLocator.Proofs.Locator.Resolvable

/-!
# Queries find the picked node

After any picks and refinements, the query of each scope selects the picked node, in both grammars. It finds exactly
that node where no other selected node stands in front of it: if tags settle on which level an element stands, and
for location paths already if the tag of the first entry settles the parent.
-/

namespace ElementLocator

namespace Document

/-- Elements of the document with the same tag have the same number of ancestors. -/
def TagsSettleLevels (d : Document) : Prop :=
  ∀ m ∈ d.elements, ∀ n ∈ d.elements, d.localName? m = d.localName? n →
    (d.nodes.lineage m).length = (d.nodes.lineage n).length

instance (d : Document) : Decidable d.TagsSettleLevels := inferInstanceAs (Decidable (∀ m ∈ d.elements, _))

/-- Elements of the document with the tag of the given one have the same parent as it. -/
def TagSettlesParent (d : Document) (t : NodeId) : Prop :=
  ∀ n ∈ d.elements, d.localName? n = d.localName? t → d.parent? n = d.parent? t

instance (d : Document) (t : NodeId) : Decidable (d.TagSettlesParent t) :=
  inferInstanceAs (Decidable (∀ n ∈ d.elements, _))

end Document

namespace Locator

open Css (Complex)

variable {d : Document} {start leaf n m p : NodeId} {descriptors : List Descriptor} {x first : Descriptor}
  {others : List Descriptor} {config : Config} {ops : List Operation} {scope : Scope}

/-! ### What follows a trail stands behind its end -/

/-- What follows a trail from where it starts, or from a sibling of the document element if it starts there, is the
node at its end or stands behind it. -/
theorem Trail.eq_or_precedes (hd : d.Sound) (h : Trail d start descriptors leaf) (hleads : Leads d descriptors p leaf)
    (hroot : Document.root ∈ d.nodes.lineage p) (hfollows : Follows d descriptors m n) (hn : d.isElement n = true)
    (hm : m = p ∨ d.documentElement? = some p ∧ m ∈ d.elementChildren Document.root) :
    n = leaf ∨ d.Precedes leaf n := by
  have hleaf := (hd.mem_descendantElements_iff.1 (h.leaf_below hd)).2
  by_cases hmp : m = p
  · subst hmp
    exact (hfollows.eq_or_later hd h.element hleads).imp_right fun hlater =>
      hd.precedes_of_preorder hroot hlater hleaf hn
  · obtain ⟨htop, hm⟩ := hm.resolve_left hmp
    obtain ⟨rest, hchildren⟩ := List.head?_eq_some_iff.1 htop
    rw [hchildren] at hm
    have hpair : [p, m].Sublist (d.elementChildren Document.root) := by
      rw [hchildren]
      exact (List.singleton_sublist.2 ((List.mem_cons.1 hm).resolve_left hmp)).cons_cons p
    have hlater := hd.wellFormed.pair_sublist_of_siblings (hpair.trans List.filter_sublist)
      (hleads.follows.mem_lineage hd) (hfollows.mem_lineage hd)
    exact .inr (hd.precedes_of_preorder (Forest.WellFormed.self_mem_lineage d.nodes _) hlater hleaf hn)

/-- A trail leads from a node of the document. -/
theorem Trail.root_mem_lineage (hd : d.Sound) (h : Trail d start descriptors leaf)
    (hp : p = start ∨ start = Document.root ∧ d.documentElement? = some p) : Document.root ∈ d.nodes.lineage p := by
  rcases hp with rfl | ⟨-, hp⟩
  · exact h.attached
  · exact hd.wellFormed.parent_mem_lineage (parent_of_documentElement hd hp).1

/-- Where tags settle levels, whatever follows a trail below the same start is the node at its end or stands behind it.
The first nodes of both ways stand on one level, and so do their parents; one level below the document node stand its
children. -/
theorem Trail.eq_or_precedes_of_levels (hd : d.Sound) (hnest : d.ElementsNest) (hlevels : d.TagsSettleLevels)
    (h : Trail d start descriptors leaf) (hm : start ∈ d.nodes.lineage m) (hfollows : Follows d descriptors m n)
    (hn : d.isElement n = true) : n = leaf ∨ d.Precedes leaf n := by
  obtain ⟨p, hleads, hp⟩ := h.leads
  have hroot := h.root_mem_lineage hd hp
  have hmroot := hd.wellFormed.mem_lineage_trans h.attached hm
  refine h.eq_or_precedes hd hleads hroot hfollows hn ?_
  obtain ⟨x, rest, rfl⟩ := List.exists_cons_of_ne_nil h.ne_nil
  obtain ⟨hx, -⟩ := hleads
  obtain ⟨k, hk, hresembles, -⟩ := hfollows
  have hxelement := h.element x List.mem_cons_self
  have hlevel := hlevels k (hd.mem_elements_of_parent (hresembles.isElement hxelement) hk hmroot) x.node
    (hd.mem_elements_of_parent hxelement hx hroot) hresembles.tag
  rw [hd.wellFormed.length_lineage_of_parent hk, hd.wellFormed.length_lineage_of_parent hx, Nat.succ_inj] at hlevel
  rcases hp with rfl | ⟨rfl, hp⟩
  · exact .inl (hd.wellFormed.eq_of_length_lineage hm hlevel.symm).symm
  · obtain ⟨hparent, -⟩ := parent_of_documentElement hd hp
    rw [hd.wellFormed.length_lineage_of_parent hparent] at hlevel
    have hmparent := hd.wellFormed.parent_of_length_lineage hm hlevel
    refine .inr ⟨hp, hd.mem_elementChildren_iff.2 ⟨hmparent, ?_⟩⟩
    refine (hnest m k hk).resolve_left ?_
    rintro rfl
    exact Nat.succ_ne_self _ hlevel.symm

/-- Where the tag of its first entry settles the parent, whatever follows a trail below the same start is the node at
its end or stands behind it. The first nodes of both ways have one tag, and therefore one parent. -/
theorem Trail.eq_or_precedes_of_parent (hd : d.Sound) (h : Trail d start descriptors leaf)
    (htop : ∀ t ∈ (descriptors.map Descriptor.node).head?, d.TagSettlesParent t) (hm : start ∈ d.nodes.lineage m)
    (hfollows : Follows d descriptors m n) (hn : d.isElement n = true) : n = leaf ∨ d.Precedes leaf n := by
  obtain ⟨p, hleads, hp⟩ := h.leads
  have hmroot := hd.wellFormed.mem_lineage_trans h.attached hm
  refine h.eq_or_precedes hd hleads (h.root_mem_lineage hd hp) hfollows hn (.inl ?_)
  obtain ⟨x, rest, rfl⟩ := List.exists_cons_of_ne_nil h.ne_nil
  obtain ⟨hx, -⟩ := hleads
  obtain ⟨k, hk, hresembles, -⟩ := hfollows
  have hkelement := hresembles.isElement (h.element x List.mem_cons_self)
  have hparent := htop x.node rfl k (hd.mem_elements_of_parent hkelement hk hmroot) hresembles.tag
  rw [hk, hx] at hparent
  exact Option.some.inj hparent

/-! ### Matches on settled levels -/

/-- Whatever follows a way to a node ends at an element with the tag of that node. -/
theorem Follows.localName?_eq (hne : descriptors ≠ []) (hleads : Leads d descriptors p leaf)
    (h : Follows d descriptors m n) : d.localName? n = d.localName? leaf := by
  rw [← List.dropLast_append_getLast hne, leads_concat] at hleads
  rw [← List.dropLast_append_getLast hne, follows_concat] at h
  obtain ⟨-, -, -, rfl⟩ := hleads
  obtain ⟨-, -, -, hresembles⟩ := h
  exact hresembles.tag

/-- Where tags settle levels, an element with the tag of a child is the child of whatever node above it has the tag of
the parent: it stands one level below it. -/
theorem parent_eq_of_levels (hd : d.Sound) (hlevels : d.TagsSettleLevels) {k q y : NodeId}
    (hk : k ∈ d.elements) (hq : q ∈ d.elements) (htag : d.localName? k = d.localName? q)
    (hn : n ∈ d.elements) (hy : y ∈ d.elements) (htag' : d.localName? n = d.localName? y)
    (hparent : d.parent? y = some q) (hkn : k ∈ d.nodes.lineage n) : d.parent? n = some k := by
  refine hd.wellFormed.parent_of_length_lineage hkn ?_
  rw [hlevels n hn y hy htag', hlevels k hk q hq htag, hd.wellFormed.length_lineage_of_parent hparent]

/-- Where tags settle levels, a selector cannot skip any: what matches it follows the described nodes. Each node in
front has the tag of the described parent and stands one level above. -/
theorem follows_of_matches (hd : d.Sound) (hlevels : d.TagsSettleLevels)
    (hstart : Document.root ∈ d.nodes.lineage start) (hp : Document.root ∈ d.nodes.lineage p)
    (hwritable : ∀ x ∈ first :: others, x.Writable d) (hescapable : ∀ x ∈ first :: others, x.Escapable d)
    (hleads : Leads d (first :: others) p leaf) (hn : start ∈ d.nodes.lineage n) (hne : n ≠ start)
    (h : Complex.Matches d (some start) (selectorOf d first others) n) :
    ∃ m, start ∈ d.nodes.lineage m ∧ Follows d (first :: others) m n := by
  induction others using List.reverseRecOn generalizing n leaf with
  | nil =>
    have hresembles := resembles_of_allHold hd (hwritable first List.mem_cons_self)
      (hescapable first List.mem_cons_self) (matches_singleton.1 h)
    rcases hd.wellFormed.mem_lineage_iff.1 hn with heq | ⟨q, hq, habove⟩
    · exact absurd heq.symm hne
    · exact ⟨q, habove, n, hq, hresembles, rfl⟩
  | append_singleton others x ih =>
    obtain ⟨hholds, k, hk, hmatch⟩ := matches_selectorOf_concat.1 h
    obtain ⟨hkelement, hkn, habove, hkne⟩ := Css.mem_ancestorsWithin hd hn hne hk
    have hx : x ∈ first :: (others ++ [x]) := by simp
    have hresembles := resembles_of_allHold hd (hwritable x hx) (hescapable x hx) hholds
    rw [← List.cons_append, leads_concat] at hleads
    obtain ⟨q, hq, hparent, -⟩ := hleads
    obtain ⟨m, hm, hfollows⟩ := ih (fun y hy => hwritable y (List.mem_append_left [x] hy))
      (fun y hy => hescapable y (List.mem_append_left [x] hy)) hq habove hkne hmatch
    refine ⟨m, hm, ?_⟩
    rw [← List.cons_append, follows_concat]
    refine ⟨k, hfollows, ?_, hresembles⟩
    have htag := hfollows.localName?_eq (List.cons_ne_nil _ _) hq
    have hqroot := hd.wellFormed.mem_lineage_trans hp (hq.follows.mem_lineage hd)
    have hkroot := hd.wellFormed.mem_lineage_trans hstart habove
    have hqelement : d.isElement q = true := by
      rw [Document.isElement, ← htag]
      exact hkelement
    have hxelement := (hwritable x hx).isElement
    have hnroot := hd.wellFormed.mem_lineage_trans hkroot hkn
    exact parent_eq_of_levels hd hlevels (hd.mem_elements_of_lineage hkelement hkroot)
      (hd.mem_elements_of_lineage hqelement hqroot) htag
      (hd.mem_elements_of_lineage (hresembles.isElement hxelement) hnroot)
      (hd.mem_elements_of_parent hxelement hparent hqroot) hresembles.tag hparent hkn

/-! ### The query of a scope -/

/-- A scope with entries has a trail to its leaf. -/
theorem trail_run (hd : d.Sound) (hnest : d.ElementsNest) (config : Config) (ops : List Operation)
    (hne : ((Locator.start d config).run ops).handles scope ≠ []) :
    ∃ leaf, ((Locator.start d config).run ops).leaf? scope = some leaf ∧
      Trail d (((Locator.start d config).run ops).startOf scope)
        (((Locator.start d config).run ops).descriptorsOf scope) leaf :=
  (layout_run hd config ops).trail hd hnest hne

/-- A scope finds the first of the nodes that its query selects. -/
theorem findScope_run (grammar : Grammar) {found : List NodeId}
    (hne : ((Locator.start d config).run ops).descriptorsOf scope ≠ [])
    (hlegible : Legible d (((Locator.start d config).run ops).descriptorsOf scope))
    (hfound : selectFrom d (((Locator.start d config).run ops).startOf scope)
      ((((Locator.start d config).run ops).setGrammar grammar).query scope) grammar = .ok found) :
    (((Locator.start d config).run ops).setGrammar grammar).findScope scope = .ok found.head? := by
  rw [query_run] at hfound
  rw [findScope_eq, selected_run_of_ne_nil grammar hne hlegible, hfound]
  rfl

/-- A scope finds the leaf if that is among the selected nodes and the others stand behind it. -/
theorem findScope_run_eq_leaf (hd : d.Sound) (grammar : Grammar) {found : List NodeId}
    (hne : ((Locator.start d config).run ops).descriptorsOf scope ≠ [])
    (hlegible : Legible d (((Locator.start d config).run ops).descriptorsOf scope))
    (hfound : selectFrom d (((Locator.start d config).run ops).startOf scope)
      ((((Locator.start d config).run ops).setGrammar grammar).query scope) grammar = .ok found)
    (hsublist : found.Sublist d.elements) (hmem : leaf ∈ found)
    (hbehind : ∀ n ∈ found, d.isElement n = true → n = leaf ∨ d.Precedes leaf n) :
    (((Locator.start d config).run ops).setGrammar grammar).findScope scope = .ok (some leaf) := by
  have hfirst : found.head? = some leaf :=
    head?_eq_some_of_sublist (hd.descendantElements_nodup Document.root) hsublist hmem fun n hn =>
      hbehind n hn (hd.mem_elements_iff.1 (hsublist.subset hn)).1
  rw [findScope_run grammar hne hlegible hfound, hfirst]

/-- All that the query of a scope selects, with the leaf among it. What a location path selects follows the trail in any
document. -/
theorem exists_selected_run (hd : d.Sound) (hfew : d.FewSiblings) (hnul : NoNul ops)
    (htrail : Trail d (((Locator.start d config).run ops).startOf scope)
      (((Locator.start d config).run ops).descriptorsOf scope) leaf)
    (hlegible : Legible d (((Locator.start d config).run ops).descriptorsOf scope)) (grammar : Grammar) :
    ∃ found, selectFrom d (((Locator.start d config).run ops).startOf scope)
        ((((Locator.start d config).run ops).setGrammar grammar).query scope) grammar = .ok found ∧
      found.Sublist d.elements ∧ leaf ∈ found ∧
      (d.TagsSettleLevels → ∀ n ∈ found, ∃ m, ((Locator.start d config).run ops).startOf scope ∈ d.nodes.lineage m ∧
        Follows d (((Locator.start d config).run ops).descriptorsOf scope) m n) := by
  have hgrounded := grounded_descriptorsOf d config ops scope
  rw [query_run]
  generalize hdescriptors : ((Locator.start d config).run ops).descriptorsOf scope = descriptors at *
  cases grammar with
  | xpath =>
    obtain ⟨found, hfound, hsublist, hleaf, hfollows⟩ :=
      htrail.select_path hd hfew hlegible fun habsolute => startOf_of_absolute habsolute
    exact ⟨found, hfound, hsublist, hleaf, fun _ => hfollows⟩
  | css =>
    obtain ⟨first, others, rfl⟩ := List.exists_cons_of_ne_nil htrail.ne_nil
    have hescapable : ∀ x ∈ first :: others, x.Escapable d := fun x hx =>
      (hgrounded x hx).escapable hd hfew (hlegible.writable x hx) hnul
    obtain ⟨found, hfound, hsublist, hleaf, hmatches⟩ := htrail.select_selector hd hlegible hescapable _
    refine ⟨found, hfound, hsublist, hleaf, fun hlevels n hn => ?_⟩
    obtain ⟨hbelow, hmatch⟩ := hmatches n hn
    obtain ⟨p, hleads, hp⟩ := htrail.leads
    obtain ⟨⟨habove, hne⟩, -⟩ := hd.mem_descendantElements_iff.1 hbelow
    exact follows_of_matches hd hlevels htrail.attached (htrail.root_mem_lineage hd hp) hlegible.writable hescapable
      hleads habove hne hmatch

/-! ### Round trips -/

/-- After any run, the query of each scope with entries is read in both grammars and selects the picked node, so it
finds that node or one in front of it. -/
theorem leaf_selected_run (hd : d.Built) (hnest : d.ElementsNest) (htags : d.PlainTags) (hfew : d.FewSiblings)
    (hnames : ∀ name ∈ config.attributes, Text.IsPlain name) (hnul : NoNul ops)
    (hne : ((Locator.start d config).run ops).handles scope ≠ []) (grammar : Grammar) :
    ∃ leaf found n, ((Locator.start d config).run ops).leaf? scope = some leaf ∧
      selectFrom d (((Locator.start d config).run ops).startOf scope)
        ((((Locator.start d config).run ops).setGrammar grammar).query scope) grammar = .ok found ∧
      leaf ∈ found ∧ n ∈ found ∧
      (((Locator.start d config).run ops).setGrammar grammar).findScope scope = .ok (some n) ∧
      (n = leaf ∨ d.Precedes n leaf) := by
  obtain ⟨leaf, hleaf, htrail⟩ := trail_run hd.sound hnest config ops hne
  have hlegible := legible_of_trail htags (plainChoices_of_attributes hnames ops) htrail
  obtain ⟨found, hfound, hsublist, hmem, -⟩ := exists_selected_run hd.sound hfew hnul htrail hlegible grammar
  obtain ⟨n, hhead, hn, hfirst⟩ := exists_head?_eq_some hsublist hmem
  refine ⟨leaf, found, n, hleaf, hfound, hmem, hn, ?_, hfirst⟩
  rw [findScope_run grammar htrail.ne_nil hlegible hfound, hhead]

/-- On the page, the query of the relative path selects the leaf, and the scope resolves to a node that is the leaf or
stands before it. -/
theorem leaf_selected_run_page :
    ∃ leaf found n, ((Locator.start page {}).run pageOperations).leaf? .relative = some leaf ∧
      selectFrom page (((Locator.start page {}).run pageOperations).startOf .relative)
        ((((Locator.start page {}).run pageOperations).setGrammar .css).query .relative) .css = .ok found ∧
      leaf ∈ found ∧ n ∈ found ∧
      (((Locator.start page {}).run pageOperations).setGrammar .css).findScope .relative = .ok (some n) ∧
      (n = leaf ∨ page.Precedes n leaf) :=
  leaf_selected_run built_page (by decide) (by decide) (built_page.sound.fewSiblings_of_size (by decide)) (by decide)
    (by decide) (by decide) .css

/-- Where tags settle levels, each scope with entries finds exactly the picked node, in both grammars. -/
theorem findScope_run_of_levels (hd : d.Built) (hnest : d.ElementsNest) (htags : d.PlainTags) (hfew : d.FewSiblings)
    (hlevels : d.TagsSettleLevels) (hnames : PlainChoices config ops) (hnul : NoNul ops)
    (hne : ((Locator.start d config).run ops).handles scope ≠ []) (grammar : Grammar) :
    ∃ leaf, ((Locator.start d config).run ops).leaf? scope = some leaf ∧
      (((Locator.start d config).run ops).setGrammar grammar).findScope scope = .ok (some leaf) := by
  obtain ⟨leaf, hleaf, htrail⟩ := trail_run hd.sound hnest config ops hne
  have hlegible := legible_of_trail htags hnames htrail
  obtain ⟨found, hfound, hsublist, hmem, hfollows⟩ := exists_selected_run hd.sound hfew hnul htrail hlegible grammar
  refine ⟨leaf, hleaf, findScope_run_eq_leaf hd.sound grammar htrail.ne_nil hlegible hfound hsublist hmem ?_⟩
  intro n hn helement
  obtain ⟨m, hm, hn⟩ := hfollows hlevels n hn
  exact htrail.eq_or_precedes_of_levels hd.sound hnest hlevels hm hn helement

/-- On the page, where tags settle the levels, the relative query finds the leaf. -/
theorem findScope_run_of_levels_page :
    (((Locator.start page {}).run pageOperations).setGrammar .css).findScope .relative = .ok (some 6) := by
  have hround : ∃ leaf, ((Locator.start page {}).run pageOperations).leaf? .relative = some leaf ∧
      (((Locator.start page {}).run pageOperations).setGrammar .css).findScope .relative = .ok (some leaf) :=
    findScope_run_of_levels built_page (by decide) (by decide) (built_page.sound.fewSiblings_of_size (by decide))
      (by decide) (by decide) (by decide) (by decide) .css
  obtain ⟨leaf, hleaf, hfind⟩ := hround
  have hpicked : ((Locator.start page {}).run pageOperations).leaf? .relative = some 6 := by decide
  rw [hpicked] at hleaf
  cases hleaf
  exact hfind

/-- Where the tag of the first entry settles the parent, the location path of the main scope finds exactly the picked
node, whatever the values of the refinements are. -/
theorem findScope_main_run (hd : d.Built) (hnest : d.ElementsNest) (htags : d.PlainTags) (hfew : d.FewSiblings)
    (hnames : PlainChoices config ops) (hne : ((Locator.start d config).run ops).main ≠ [])
    (htop : ∀ t ∈ (((Locator.start d config).run ops).nodesOf ((Locator.start d config).run ops).main).head?,
      d.TagSettlesParent t) :
    ∃ leaf, ((Locator.start d config).run ops).leaf? .main = some leaf ∧
      (((Locator.start d config).run ops).setGrammar .xpath).findScope .main = .ok (some leaf) := by
  have hentries : ((Locator.start d config).run ops).handles .main ≠ [] := hne
  have hnodes : ((Locator.start d config).run ops).nodesOf ((Locator.start d config).run ops).main = _ :=
    (map_node_descriptorsOf ((Locator.start d config).run ops) .main).symm
  rw [hnodes] at htop
  obtain ⟨leaf, hleaf, htrail⟩ := trail_run hd.sound hnest config ops hentries
  have hlegible := legible_of_trail htags hnames htrail
  obtain ⟨found, hfound, hsublist, hmem, hfollows⟩ :=
    htrail.select_path hd.sound hfew hlegible fun habsolute => startOf_of_absolute habsolute
  rw [← query_run] at hfound
  refine ⟨leaf, hleaf, findScope_run_eq_leaf hd.sound .xpath htrail.ne_nil hlegible hfound hsublist hmem ?_⟩
  intro n hn helement
  obtain ⟨m, hm, hn⟩ := hfollows n hn
  exact htrail.eq_or_precedes_of_parent hd.sound htop hm hn helement

/-- On the page, the main query finds the leaf. -/
theorem findScope_main_run_page :
    (((Locator.start page {}).run pageOperations).setGrammar .xpath).findScope .main = .ok (some 5) := by
  have hround : ∃ leaf, ((Locator.start page {}).run pageOperations).leaf? .main = some leaf ∧
      (((Locator.start page {}).run pageOperations).setGrammar .xpath).findScope .main = .ok (some leaf) :=
    findScope_main_run built_page (by decide) (by decide) (built_page.sound.fewSiblings_of_size (by decide))
      (by decide) (by decide) (by decide)
  obtain ⟨leaf, hleaf, hfind⟩ := hround
  have hpicked : ((Locator.start page {}).run pageOperations).leaf? .main = some 5 := by decide
  rw [hpicked] at hleaf
  cases hleaf
  exact hfind

end Locator

end ElementLocator
