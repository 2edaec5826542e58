import ElementLocator.Proofs.Locator.Selected
import ElementLocator.Proofs.XPath.Acceptance

/-!
# Chains of tags in both grammars

A chain of tags, each with a place among the siblings with that tag if it matters, can be written as a location path
and as a selector. The location path is followed from the top: it collects the children of each node on the way. The
selector is matched from the bottom: each element is asked for its own place and for its parent. Both find the ends of
the ways down along which each child fits its step, so both find the same elements if only elements nest. Without any
choices, what a locator writes is such a chain; its selector joins the tags as descendants and may find more.
-/

namespace ElementLocator.Locator

open Css (Combinator ComponentValue Compound)
open XPath (LocationPath bracketed)

variable {d : Document}

/-- A tag and, unless it can be anywhere, its place among the siblings with the same tag, counted from one. -/
structure TagStep where
  tag : String
  place : Option Nat := none

/-- A place with a mark on either side of it. -/
def markedPlace (opening closing : String) : Option Nat → String
  | none => ""
  | some k => opening ++ toString k ++ closing

/-- A marked place is written in decimal digits between its marks. -/
theorem toList_markedPlace (opening closing : String) (k : Nat) :
    (markedPlace opening closing (some k)).toList = opening.toList ++ digits k ++ closing.toList := by
  simp [markedPlace, digits, toString, Nat.repr]

namespace TagStep

/-- The step as it is written in a location path. -/
def inPath (s : TagStep) : String := s.tag ++ markedPlace "[" "]" s.place

/-- The step as it is written in a selector. -/
def inSelector (s : TagStep) : String := s.tag ++ markedPlace ":nth-of-type(" ")" s.place

/-- The tag is plain, and the place is a positive integer of 32 bits. -/
structure Plain (s : TagStep) : Prop where
  tag : Text.IsPlain s.tag
  place : ∀ k ∈ s.place, 1 ≤ k ∧ k < 2 ^ 31

/-- A step is plain if its tag is and its place is a number that queries can have. -/
theorem plain_iff {s : TagStep} : s.Plain ↔ Text.IsPlain s.tag ∧ ∀ k ∈ s.place, 1 ≤ k ∧ k < 2 ^ 31 :=
  ⟨fun h => ⟨h.tag, h.place⟩, fun h => ⟨h.1, h.2⟩⟩

instance (s : TagStep) : Decidable s.Plain := decidable_of_iff _ plain_iff.symm

/-- The element has the tag, in any letter case, and the place if there is one. -/
def Fits (d : Document) (s : TagStep) (n : NodeId) : Prop :=
  d.localName? n = some (Text.lower s.tag) ∧ ∀ k ∈ s.place, d.positionalIndex n + 1 = k

/-- The steps reach the element: it is the end of a way down from anywhere in the document along which each child fits
its step. -/
def Reaches (d : Document) (steps : List TagStep) (n : NodeId) : Prop :=
  ∃ m, (m = Document.root ∨ m ∈ d.elements) ∧ d.Descends (steps.map (Fits d)) m n

variable {n p : NodeId} {s first : TagStep} {steps others : List TagStep}

/-! ### Location paths -/

/-- The predicate of the place with its tokens. -/
def predicates (s : TagStep) : List (List XPath.Token × XPath.Expr) := (s.place.map XPath.placePredicate).toList

/-- The step of a location path. -/
def toStep (s : TagStep) : XPath.Step := ⟨.child, .name s.tag, s.predicates.map Prod.snd⟩

/-- A plain step is written in a path as its tag with its predicate in brackets. -/
theorem writesStep_inPath (hs : s.Plain) :
    XPath.WritesStep s.inPath.toList (.name s.tag :: bracketed s.predicates) := by
  have hplace : XPath.Writes (markedPlace "[" "]" s.place).toList (bracketed s.predicates) := by
    unfold predicates
    cases hk : s.place with
    | none => exact XPath.Writes.nil
    | some k =>
      have hpositive : k ≠ 0 := Nat.one_le_iff_ne_zero.1 (hs.place k hk).1
      rw [toList_markedPlace]
      exact XPath.writes_place hpositive
  have hstep := hplace.step hs.tag
  rw [String.ofList_toList] at hstep
  rw [inPath, String.toList_append]
  exact hstep

/-- The predicate of a step is derived from the grammar. -/
theorem derives_predicates (s : TagStep) : ∀ i ∈ s.predicates, XPath.Derives.Disjunction i.1 i.2 := by
  intro i hi
  unfold predicates at hi
  cases hk : s.place with
  | none =>
    rw [hk] at hi
    cases hi
  | some k =>
    rw [hk] at hi
    obtain rfl := List.mem_singleton.1 hi
    exact (XPath.Derives.Comparison.primary (.number _)).disjunction

/-- A plain step is read back as itself. -/
theorem reads_toStep (stop : Nat) (s : TagStep) :
    XPath.Grammar.ReadsStep stop (.name s.tag :: bracketed s.predicates) s.toStep :=
  (XPath.Derives.Step.full s.predicates .none (.name s.tag) s.derives_predicates).reads

/-- The location path of a chain. -/
def path (steps : List TagStep) : LocationPath := ⟨true, .anywhere :: steps.map toStep⟩

/-- A path of plain steps is parsed as those steps. -/
theorem parse_path (hne : steps ≠ []) (hplain : ∀ s ∈ steps, s.Plain) :
    XPath.parse ("//" ++ "/".intercalate (steps.map inPath)) = .ok (path steps) := by
  have htext : "//" ++ "/".intercalate (steps.map inPath) =
      String.ofList ('/' :: '/' :: ['/'].intercalate (steps.map fun s => s.inPath.toList)) := by
    apply String.toList_injective
    simp [String.toList_intercalate, Function.comp_def]
  rw [htext]
  exact XPath.parse_absolute hne (fun s hs => writesStep_inPath (hplain s hs)) fun stop s _ => reads_toStep stop s

/-- The step leads to the children that fit it. -/
theorem mem_from_toStep (hd : d.Sound) (hfew : (d.childrenWithTag p (Text.lower s.tag)).length < 2 ^ 31) (hs : s.Plain) :
    n ∈ s.toStep.from d p ↔ d.parent? n = some p ∧ s.Fits d n := by
  rw [XPath.Step.from, toStep, XPath.filter_passes_name hd, Fits, predicates]
  cases hk : s.place with
  | none => simp [hd.mem_childrenWithTag_iff]
  | some k =>
    obtain ⟨hpositive, hbound⟩ := hs.place k hk
    obtain ⟨k, rfl⟩ := Nat.exists_eq_add_of_le' hpositive
    simp only [Option.map_some, Option.toList_some, List.map_singleton, List.foldl_cons, List.foldl_nil,
      XPath.mem_keep_place hd hfew hbound, hd.mem_childrenWithTag_iff, Option.mem_some_iff, forall_eq', and_assoc,
      Nat.add_right_cancel_iff]

/-- The location path selects the ends of the ways down whose children fit the steps. -/
theorem mem_select_path (hd : d.Sound) (hfew : d.FewSiblings) (hplain : ∀ s ∈ steps, s.Plain) :
    n ∈ (path steps).select d Document.root ↔ Reaches d steps n := by
  have hreached : ∀ m, XPath.Reached d (steps.map toStep) m n ↔ d.Descends (steps.map (Fits d)) m n := fun m =>
    XPath.reached_iff_descends fun s hs p n =>
      mem_from_toStep hd (hfew.length_childrenWithTag_lt p _) (hplain s hs)
  rw [XPath.mem_select]
  simp only [path, if_true, XPath.Reached, mem_from_anywhere hd (.inl rfl), hreached]
  rfl

/-- A query for the location path finds the selected elements in document order. -/
theorem select_path (hd : d.Sound) (hne : steps ≠ []) (hplain : ∀ s ∈ steps, s.Plain) :
    XPath.select d Document.root ("//" ++ "/".intercalate (steps.map inPath)) =
      .ok (d.elements.filter (· ∈ (path steps).select d Document.root)) := by
  have hsteps : ∀ s ∈ (path steps).steps, s.axis ≠ .parent := by
    intro s hs
    rcases List.mem_cons.1 hs with rfl | hs
    · nofun
    · obtain ⟨t, -, rfl⟩ := List.mem_map.1 hs
      nofun
  rw [XPath.select, parse_path hne hplain]
  exact congrArg Except.ok (XPath.select_elements hd hsteps (List.cons_ne_nil _ _)
    (Forest.WellFormed.self_mem_lineage d.nodes _))

/-! ### Selectors -/

/-- The condition on the place. -/
def pieces (s : TagStep) : List Css.Piece := (s.place.map Css.placePiece).toList

/-- The compound of a selector. -/
def toCompound (s : TagStep) : Compound := ⟨s.tag, s.pieces⟩

/-- A plain step is written in a selector as its compound. -/
theorem writesCompound_inSelector (hs : s.Plain) : Css.WritesCompound s.inSelector.toList s.toCompound := by
  have hplace : Css.Writes (markedPlace ":nth-of-type(" ")" s.place).toList (s.pieces.flatMap Prod.fst) := by
    unfold pieces
    cases s.place with
    | none => exact Css.Writes.nil
    | some k =>
      rw [toList_markedPlace, Option.map_some, Option.toList_some, List.flatMap_singleton]
      exact Css.writes_place k
  have hcompound := hplace.compound hs.tag
  rw [String.ofList_toList] at hcompound
  rw [inSelector, String.toList_append]
  exact hcompound

/-- The compound of a step can be read. -/
theorem readable_toCompound (s : TagStep) : s.toCompound.Readable := by
  intro piece hpiece
  unfold toCompound pieces at hpiece
  cases hk : s.place with
  | none =>
    rw [hk] at hpiece
    cases hpiece
  | some k =>
    rw [hk] at hpiece
    obtain rfl := List.mem_singleton.1 hpiece
    exact Css.readsConditions_place k

/-- The selector of a chain. -/
def selector (joint : Combinator) (first : TagStep) (others : List TagStep) : Css.Complex :=
  Css.joinWith joint first.toCompound (others.map toCompound)

/-- A selector of plain steps is parsed as their compounds, joined as they are written. -/
theorem parse_selector {sep : String} {joint : Combinator} {vs : List ComponentValue}
    (hsep : Css.Separates sep.toList vs) (hjoins : Css.Joins joint vs) (hplain : ∀ s ∈ first :: others, s.Plain) :
    Css.parse (sep.intercalate ((first :: others).map inSelector)) = .ok [selector joint first others] := by
  have htext : sep.intercalate ((first :: others).map inSelector) =
      String.ofList (sep.toList.intercalate ((first :: others).map fun s => s.inSelector.toList)) := by
    apply String.toList_injective
    rw [String.toList_intercalate, String.toList_ofList, List.map_map]
    rfl
  rw [htext]
  exact Css.parse_intercalate hsep hjoins (fun s hs => writesCompound_inSelector (hplain s hs)) fun s _ =>
    s.readable_toCompound

/-- The compound is met by the elements that fit the step. -/
theorem metBy_toCompound (hs : s.Plain) : s.toCompound.MetBy d none n ↔ s.Fits d n := by
  have hconditions : s.toCompound.conditions = .type s.tag :: s.pieces.flatMap Prod.snd := rfl
  rw [Compound.MetBy, hconditions, allHold_iff, List.forall_mem_cons, ← allHold_iff, Fits, pieces, Css.Simple.holds,
    beq_iff_eq]
  cases hk : s.place with
  | none => simp [Css.Simple.allHold]
  | some k =>
    have hbound : k ≤ 0x7FFFFFFF := Nat.le_of_lt_succ (hs.place k hk).2
    rw [Option.map_some, Option.toList_some, List.flatMap_singleton, holds_placePiece hbound]
    simp

/-- Joined as children, the tags match the ends of the ways down whose children fit the steps. -/
theorem matches_selector_child (hd : d.Sound) (hnest : d.ElementsNest) (hn : Document.root ∈ d.nodes.lineage n)
    (hplain : ∀ s ∈ first :: others, s.Plain) :
    Css.Complex.Matches d none (selector .child first others) n ↔ Reaches d (first :: others) n := by
  have hkinds : (first.toCompound :: others.map toCompound).map (Compound.MetBy d none) =
      (first :: others).map (Fits d) := by
    rw [← List.map_cons, List.map_map]
    apply List.map_congr_left
    intro s hs
    funext m
    exact propext (metBy_toCompound (hplain s hs))
  rw [selector, Css.matches_child_iff hd hnest hn, hkinds, Reaches]

/-- What matches the tags joined as children matches them joined as descendants. -/
theorem matches_selector_descendant (h : Css.Complex.Matches d none (selector .child first others) n) :
    Css.Complex.Matches d none (selector .descendant first others) n := by
  have hcompounds : List.Forall₂ (Compound.Narrows d none) (first.toCompound :: others.map toCompound)
      (first.toCompound :: others.map toCompound) := List.forall₂_same.2 fun c _ n hc => hc
  exact h.mono (fun m n hm => Css.relates_descendant_of_child hm) hcompounds

/-! ### Both grammars -/

/-- A chain of plain tags selects the same elements in both grammars, if the selector joins the tags as children; joined
as descendants they select those as well. -/
theorem exists_select (hd : d.Sound) (hnest : d.ElementsNest) (hfew : d.FewSiblings) (hne : steps ≠ [])
    (hplain : ∀ s ∈ steps, s.Plain) :
    ∃ found wider, XPath.select d Document.root ("//" ++ "/".intercalate (steps.map inPath)) = .ok found ∧
      Css.queryAll d (" > ".intercalate (steps.map inSelector)) = .ok found ∧
      Css.queryAll d (" ".intercalate (steps.map inSelector)) = .ok wider ∧ found.Sublist wider ∧
      ∀ n, n ∈ found ↔ n ∈ d.elements ∧ Reaches d steps n := by
  obtain ⟨first, others, rfl⟩ := List.exists_cons_of_ne_nil hne
  have hchild : Css.parse (" > ".intercalate ((first :: others).map inSelector)) = .ok [selector .child first others] :=
    parse_selector Css.separates_arrow Css.joins_child hplain
  have hdescendant : Css.parse (" ".intercalate ((first :: others).map inSelector)) =
      .ok [selector .descendant first others] :=
    parse_selector Css.separates_blank Css.joins_descendant hplain
  have hfound : d.elements.filter (· ∈ (path (first :: others)).select d Document.root) =
      d.elements.filter (Css.matchesList d · [selector .child first others]) := by
    apply List.filter_congr
    intro n hn
    obtain ⟨helement, hattached⟩ := hd.mem_elements_iff.1 hn
    rw [Bool.eq_iff_iff, decide_eq_true_eq, mem_select_path hd hfew hplain, Css.matchesList_iff hd helement,
      matches_selector_child hd hnest (Document.Sound.isAttached_iff.1 hattached) hplain]
  have hsublist : (d.elements.filter (Css.matchesList d · [selector .child first others])).Sublist
      (d.elements.filter (Css.matchesList d · [selector .descendant first others])) := by
    apply List.monotone_filter_right
    intro n hn
    have helement : d.isElement n = true := (Bool.and_eq_true_iff.1 hn).1
    rw [Css.matchesList_iff hd helement] at hn ⊢
    exact matches_selector_descendant hn
  refine ⟨_, _, ?_, ?_, ?_, hsublist, ?_⟩
  · rw [select_path hd hne hplain, hfound]
  · rw [Css.queryAll, hchild]
    rfl
  · rw [Css.queryAll, hdescendant]
    rfl
  · intro n
    rw [← hfound, List.mem_filter, decide_eq_true_eq, mem_select_path hd hfew hplain]

/-! ### Chains that locators write -/

/-- The tag of a node in upper case with its place, unless it is the first with that tag. -/
def ofNode (d : Document) (n : NodeId) : TagStep :=
  ⟨String.ofList (tagOf d n), match d.positionalIndex n with
    | 0 => none
    | k + 1 => some (k + 2)⟩

/-- The step of a node is written as the locator writes the tag and the position. -/
theorem toList_ofNode (opening closing : String) (n : NodeId) :
    ((ofNode d n).tag ++ markedPlace opening closing (ofNode d n).place).toList =
      tagOf d n ++ position d n opening closing := by
  rw [String.toList_append]
  unfold ofNode position
  rw [String.toList_ofList]
  cases d.positionalIndex n with
  | zero => rfl
  | succ k => rw [toList_markedPlace]

/-- The step of an element with a plain tag is plain. -/
theorem plain_ofNode (hd : d.Sound) (hfew : d.FewSiblings) (hn : d.isElement n = true)
    (htag : ∀ tag, d.localName? n = some tag → Text.IsPlain tag) : (ofNode d n).Plain := by
  have hbound := hd.positionalIndex_add_one_lt hfew hn
  obtain ⟨tag, hlocal⟩ := Option.isSome_iff_exists.1 hn
  constructor
  · have hplain := htag tag hlocal
    rw [← lower_tagOf hd hlocal, Text.isPlain_lower] at hplain
    exact hplain
  · intro k hk
    unfold ofNode at hk
    cases hindex : d.positionalIndex n with
    | zero =>
      rw [hindex] at hk
      cases hk
    | succ i =>
      rw [hindex] at hk hbound
      cases hk
      exact ⟨Nat.succ_pos (i + 1), hbound⟩

variable {descriptors : List Descriptor}

/-- Descriptors that are written as the steps of their chain are joined to the text of the chain. -/
theorem intercalate_steps {write : Descriptor → List Char} {form : TagStep → String} (separator : String)
    (h : ∀ x ∈ descriptors, write x = (form (ofNode d x.node)).toList) :
    separator.toList.intercalate (descriptors.map write) =
      (separator.intercalate ((descriptors.map fun x => ofNode d x.node).map form)).toList := by
  rw [List.map_congr_left h]
  simp [String.toList_intercalate, Function.comp_def]

/-- Without any choices, the location path of descriptors is that of their chain. -/
theorem render_path (hne : descriptors ≠ []) (hrefined : ∀ x ∈ descriptors, x.attributes = []) :
    String.ofList (renderChars d descriptors .xpath .absolute) =
      "//" ++ "/".intercalate ((descriptors.map fun x => ofNode d x.node).map inPath) := by
  have hsteps : ∀ x ∈ descriptors, xpathStep d x = (ofNode d x.node).inPath.toList := by
    intro x hx
    rw [inPath, toList_ofNode, xpathStep, hrefined x hx]
    exact List.append_nil _
  have hnonempty : descriptors.isEmpty = false := by simpa using hne
  apply String.toList_injective
  rw [String.toList_ofList, renderChars, hnonempty, String.toList_append, ← intercalate_steps "/" hsteps]
  rfl

/-- Their selector joins the tags as descendants. -/
theorem render_selector (hne : descriptors ≠ []) (hrefined : ∀ x ∈ descriptors, x.attributes = []) :
    String.ofList (renderChars d descriptors .css .absolute) =
      " ".intercalate ((descriptors.map fun x => ofNode d x.node).map inSelector) := by
  have hsteps : ∀ x ∈ descriptors, cssStep d x = (ofNode d x.node).inSelector.toList := by
    intro x hx
    rw [inSelector, toList_ofNode, cssStep, hrefined x hx]
    exact List.append_nil _
  have hnonempty : descriptors.isEmpty = false := by simpa using hne
  apply String.toList_injective
  rw [String.toList_ofList, renderChars, hnonempty, ← intercalate_steps " " hsteps]
  rfl

end TagStep

/-- Where only elements nest, every chain of plain tags selects the same elements as a location path and as a selector
of children, those that its steps reach, and a selector of descendants selects them too. So whatever an absolute
location path without choices selects, the selector of the same scope selects as well. -/
theorem select_eq_queryAll (hd : d.Built) (hnest : d.ElementsNest) (hfew : d.FewSiblings) :
    (∀ steps : List TagStep, steps ≠ [] → (∀ s ∈ steps, s.Plain) →
      ∃ found wider,
        XPath.select d Document.root ("//" ++ "/".intercalate (steps.map TagStep.inPath)) = .ok found ∧
        Css.queryAll d (" > ".intercalate (steps.map TagStep.inSelector)) = .ok found ∧
        Css.queryAll d (" ".intercalate (steps.map TagStep.inSelector)) = .ok wider ∧ found.Sublist wider ∧
        ∀ n, n ∈ found ↔ n ∈ d.elements ∧ TagStep.Reaches d steps n) ∧
    ∀ (config : Config) (ops : List Operation) (scope : Scope),
      ((Locator.start d config).run ops).handles scope ≠ [] →
      ((Locator.start d config).run ops).anchoring scope = .absolute →
      (∀ x ∈ ((Locator.start d config).run ops).descriptorsOf scope,
        x.isRefined = false ∧ ∀ tag, d.localName? x.node = some tag → Text.IsPlain tag) →
      ∃ found wider,
        XPath.select d Document.root ((((Locator.start d config).run ops).setGrammar .xpath).query scope) =
          .ok found ∧
        Css.queryAll d ((((Locator.start d config).run ops).setGrammar .css).query scope) = .ok wider ∧
        found.Sublist wider := by
  refine ⟨fun steps hne hplain => TagStep.exists_select hd.sound hnest hfew hne hplain, ?_⟩
  intro config ops scope hhandles hanchoring hentries
  have hlayout := layout_run hd.sound config ops
  have hne := hlayout.descriptorsOf_ne_nil hhandles
  have hrefined : ∀ x ∈ ((Locator.start d config).run ops).descriptorsOf scope, x.attributes = [] := by
    intro x hx
    have hx := (hentries x hx).1
    simpa [Descriptor.isRefined] using hx
  have hplain : ∀ s ∈ (((Locator.start d config).run ops).descriptorsOf scope).map fun x => TagStep.ofNode d x.node,
      s.Plain := by
    rw [List.forall_mem_map]
    intro x hx
    exact TagStep.plain_ofNode hd.sound hfew (hlayout.mem_descriptorsOf hd.sound hx).1 (hentries x hx).2
  rw [query_run, query_run, hanchoring, TagStep.render_path hne hrefined, TagStep.render_selector hne hrefined]
  obtain ⟨found, wider, hpath, -, hselector, hsublist, -⟩ :=
    TagStep.exists_select hd.sound hnest hfew (by simpa using hne) hplain
  exact ⟨found, wider, hpath, hselector, hsublist⟩

/-- On the page, the path and the selector find the same nodes, among them the second paragraph of the section. -/
theorem select_eq_queryAll_page :
    (∃ found wider, XPath.select page Document.root "//Section[1]/p[2]" = .ok found ∧
      Css.queryAll page "Section:nth-of-type(1) > p:nth-of-type(2)" = .ok found ∧
      Css.queryAll page "Section:nth-of-type(1) p:nth-of-type(2)" = .ok wider ∧ found.Sublist wider ∧ 5 ∈ found) ∧
    ∃ found wider, XPath.select page Document.root "//BODY/SECTION/P[2]" = .ok found ∧
      Css.queryAll page "BODY SECTION P:nth-of-type(2)" = .ok wider ∧ found.Sublist wider := by
  obtain ⟨hchains, hwritten⟩ :=
    select_eq_queryAll built_page (by decide) (built_page.sound.fewSiblings_of_size (by decide))
  constructor
  · obtain ⟨found, wider, hpath, hchild, hdescendant, hsublist, hmem⟩ :=
      hchains [⟨"Section", some 1⟩, ⟨"p", some 2⟩] (by decide) (by decide)
    have hway : TagStep.Reaches page [⟨"Section", some 1⟩, ⟨"p", some 2⟩] 5 :=
      ⟨2, .inr (by decide), 3, by decide, ⟨by decide, by decide⟩, 5, by decide, ⟨by decide, by decide⟩, rfl⟩
    exact ⟨found, wider, hpath, hchild, hdescendant, hsublist, (hmem 5).2 ⟨by decide, hway⟩⟩
  · exact hwritten {} [.pickMain 5] .main (by decide) (by decide) (by decide)

end ElementLocator.Locator
