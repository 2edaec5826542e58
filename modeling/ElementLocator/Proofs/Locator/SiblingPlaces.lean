import ElementLocator.Proofs.Document.History
import ElementLocator.Proofs.Locator.TagChain
import ElementLocator.Proofs.XPath.Joining

/-!
# Places that tell siblings apart

The children of a node with one tag are counted four times: backwards from each of them for its index, forwards as
well to see whether there is a conflict, among the children for the predicate of a location path, and backwards again
for the places of a selector. All four leave out text, comments and elements with other tags, and they agree, so that
tag and index find a child again below its parent.
-/

namespace ElementLocator.Locator

variable {d : Document} {m n p : NodeId} {tag : String} {s : TagStep}

/-- The index numbers the children with the tag from zero on, in the order of the children, and there is a conflict
about the place of each of them if there is another one. -/
structure Numbered (d : Document) (p : NodeId) (tag : String) : Prop where
  bijective : Set.BijOn d.positionalIndex {n | n ∈ d.childrenWithTag p tag} (Set.Iio (d.childrenWithTag p tag).length)
  increasing : ∀ s ∈ d.childrenWithTag p tag, ∀ t ∈ d.childrenWithTag p tag,
    [s, t].Sublist (d.nodes.children p) → d.positionalIndex s < d.positionalIndex t
  conflict : ∀ n ∈ d.childrenWithTag p tag, d.hasPositionalConflict n = true ↔ 1 < (d.childrenWithTag p tag).length

/-- The children with a tag are numbered in their order. -/
theorem numbered (h : d.Sound) (p : NodeId) (tag : String) : Numbered d p tag where
  bijective := h.bijOn_positionalIndex p tag
  increasing _ hs _ ht hpair := h.positionalIndex_lt_of_pair_sublist hs ht hpair
  conflict _ hn := h.hasPositionalConflict_iff hn

/-- A list without repetitions of one member is that member alone. -/
theorem eq_singleton_of_nodup {found : List NodeId} (hnodup : found.Nodup) (hmem : ∀ m, m ∈ found ↔ m = n) :
    found = [n] := by
  apply List.perm_singleton.1
  apply (List.perm_ext_iff_of_nodup hnodup (List.nodup_singleton n)).2
  intro m
  rw [hmem, List.mem_singleton]

namespace TagStep

/-- A tag with the place of a node. -/
def placed (d : Document) (tag : String) (n : NodeId) : TagStep := ⟨tag, some (d.positionalIndex n + 1)⟩

/-- The step with the place of a node is plain. -/
theorem plain_placed (h : d.Sound) (hn : n ∈ d.childrenWithTag p (Text.lower tag)) (hplain : Text.IsPlain tag)
    (hfew : (d.childrenWithTag p (Text.lower tag)).length < 2 ^ 31) : (placed d tag n).Plain := by
  have hplace := h.positionalIndex_lt_length hn
  refine ⟨hplain, fun k hk => ?_⟩
  cases hk
  omega

/-- Among the children of its parent only the node itself has its tag and its place. -/
theorem fits_placed_iff (h : d.Sound) (hn : n ∈ d.childrenWithTag p (Text.lower tag)) :
    d.parent? m = some p ∧ (placed d tag n).Fits d m ↔ m = n := by
  constructor
  · intro hm
    obtain ⟨hparent, htag, hplace⟩ := hm
    have hindex : d.positionalIndex m = d.positionalIndex n := Nat.succ_inj.1 (hplace _ rfl)
    exact (h.bijOn_positionalIndex p _).injOn (h.mem_childrenWithTag_iff.2 ⟨hparent, htag⟩) hn hindex
  · rintro rfl
    obtain ⟨hparent, htag⟩ := h.mem_childrenWithTag_iff.1 hn
    exact ⟨hparent, htag, fun k hk => Option.some.inj hk⟩

/-! ### In a location path -/

/-- The step with its axis named is a path of its own. -/
theorem parse_child_inPath (hs : s.Plain) : XPath.parse ("child::" ++ s.inPath) = .ok ⟨false, [s.toStep]⟩ := by
  have haxis : XPath.Axis.ofName? "child" = some .child := rfl
  have hchild : Text.isPlainChars "child".toList = true := by decide
  have hname := (writesStep_inPath hs).spells [] [] nofun XPath.Spells.nil
  have hstep := XPath.Spells.name hchild (XPath.nameEnds_cons rfl) hname.colonColon
  rw [List.append_nil, List.append_nil, String.ofList_toList] at hstep
  apply XPath.parse_iff_spells.2
  refine ⟨_, ?_, .relative (.step (.full s.predicates (.named haxis) (.name s.tag) s.derives_predicates))⟩
  rw [String.toList_append]
  exact hstep

/-- A step that takes one element from a node selects that element. -/
theorem select_child_inPath (hs : s.Plain) (hfrom : s.toStep.from d p = [n]) (hn : d.isElement n = true) :
    XPath.select d p ("child::" ++ s.inPath) = .ok [n] := by
  have hselect : XPath.LocationPath.select d ⟨false, [s.toStep]⟩ p = [n] := by
    rw [XPath.LocationPath.select, List.foldl_cons, List.foldl_nil, XPath.Step.apply, if_neg Bool.false_ne_true,
      List.flatMap_singleton, hfrom, XPath.eraseDups_of_nodup (List.nodup_singleton n)]
    exact List.mergeSort_singleton n
  rw [XPath.select, parse_child_inPath hs]
  simp only [bind, Except.bind]
  rw [hselect, List.filter_cons_of_pos hn, List.filter_nil]

/-- The step with the place of a node leads from its parent to that node alone. -/
theorem from_placed (h : d.Sound) (hn : n ∈ d.childrenWithTag p (Text.lower tag)) (hplain : Text.IsPlain tag)
    (hfew : (d.childrenWithTag p (Text.lower tag)).length < 2 ^ 31) : (placed d tag n).toStep.from d p = [n] := by
  have hchildren : (XPath.Axis.child.nodes d p).Nodup := (h.wellFormed.nodup p).filter _
  have hnodup : ((placed d tag n).toStep.from d p).Nodup :=
    (hchildren.filter _).sublist (XPath.from_sublist (placed d tag n).toStep p)
  apply eq_singleton_of_nodup hnodup
  intro m
  rw [← fits_placed_iff h hn]
  exact mem_from_toStep h hfew (plain_placed h hn hplain hfew)

/-! ### In a selector -/

/-- A step alone is read as its compound. -/
theorem parse_inSelector (hs : s.Plain) : Css.parse s.inSelector = .ok [.compound s.toCompound.conditions] := by
  have hparse := @parse_selector s [] " " .descendant _ Css.separates_blank Css.joins_descendant (by simpa using hs)
  simpa [selector, Css.joinWith] using hparse

/-- The selector matches the elements that fit the step. -/
theorem matchesList_toCompound (h : d.Sound) (hs : s.Plain) :
    Css.matchesList d m [.compound s.toCompound.conditions] = true ↔ s.Fits d m := by
  rw [← metBy_toCompound hs, Css.matchesList, Bool.and_eq_true, Css.matchesWithin_iff h]
  exact and_iff_right_of_imp Css.Compound.MetBy.isElement

end TagStep

/-- In every document that can be built, the index numbers the children of a node with the same tag in their order, and
there is a conflict about a place exactly if there are at least two of them. So if they are fewer than `2 ^ 31` and the
tag is plain, in whatever letter case it is written, the path `child::TAG[k]` from the parent with the place of one of
them selects that one alone, and the selector `TAG:nth-of-type(k)` matches of all nodes with this parent that one alone,
whatever else it matches. -/
theorem places_identify_siblings (hd : d.Built) :
    (∀ p tag, Numbered d p tag) ∧
    ∀ n p tag, d.parent? n = some p → d.localName? n = some (Text.lower tag) → Text.IsPlain tag →
      (d.childrenWithTag p (Text.lower tag)).length < 2 ^ 31 →
      XPath.select d p ("child::" ++ (TagStep.placed d tag n).inPath) = .ok [n] ∧
      (∃ list, Css.parse (TagStep.placed d tag n).inSelector = .ok list ∧
        ∀ m, Css.matchesList d m list = true ∧ d.parent? m = some p ↔ m = n) ∧
      (d.isAttached n = true → ∃ found, Css.queryAll d (TagStep.placed d tag n).inSelector = .ok found ∧
        found.filter (fun m => d.parent? m == some p) = [n]) := by
  have h := hd.sound
  refine ⟨fun p tag => numbered h p tag, ?_⟩
  intro n p tag hparent htag hplain hfew
  have hn := h.mem_childrenWithTag_iff.2 ⟨hparent, htag⟩
  have helement := Document.isElement_of_localName htag
  have hs := TagStep.plain_placed h hn hplain hfew
  have hparse := TagStep.parse_inSelector hs
  have hmatches : ∀ m, Css.matchesList d m [.compound (TagStep.placed d tag n).toCompound.conditions] = true ∧
      d.parent? m = some p ↔ m = n := by
    intro m
    rw [TagStep.matchesList_toCompound h hs, and_comm]
    exact TagStep.fits_placed_iff h hn
  refine ⟨TagStep.select_child_inPath hs (TagStep.from_placed h hn hplain hfew) helement, ⟨_, hparse, hmatches⟩, ?_⟩
  intro hattached
  refine ⟨_, by rw [Css.queryAll, hparse]; rfl, ?_⟩
  apply eq_singleton_of_nodup (((h.descendantElements_nodup _).filter _).filter _)
  intro m
  rw [List.mem_filter, List.mem_filter, beq_iff_eq, and_assoc, hmatches]
  constructor
  · exact fun hm => hm.2
  · rintro rfl
    exact ⟨h.mem_elements_iff.2 ⟨helement, hattached⟩, rfl⟩

/-- A list whose items stand between notes and a paragraph. -/
def mixedItems : Document :=
  Document.empty.edits
    [.element "ul", .append 0 1, .text "note", .append 1 2, .element "li", .append 1 3, .comment "note", .append 1 4,
      .element "p", .append 1 5, .text "note", .append 1 6, .element "li", .append 1 7]

/-- The second item is found by its tag and its place from the list, in both grammars. -/
theorem places_identify_siblings_mixedItems :
    mixedItems.Built ∧ mixedItems.parent? 7 = some 1 ∧ mixedItems.localName? 7 = some (Text.lower "LI") ∧
      Text.IsPlain "LI" ∧ (mixedItems.childrenWithTag 1 (Text.lower "LI")).length < 2 ^ 31 ∧
      mixedItems.isAttached 7 = true ∧ Numbered mixedItems 1 "li" ∧ mixedItems.childrenWithTag 1 "li" = [3, 7] ∧
      XPath.select mixedItems 1 "child::LI[2]" = .ok [7] ∧
      ∃ found, Css.queryAll mixedItems "LI:nth-of-type(2)" = .ok found ∧
        found.filter (fun m => mixedItems.parent? m == some 1) = [7] := by
  have hbuilt : mixedItems.Built := Document.built_edits (by decide)
  have hplain : Text.IsPlain "LI" := by decide
  have hfew : (mixedItems.childrenWithTag 1 (Text.lower "LI")).length < 2 ^ 31 := by decide
  obtain ⟨hnumbered, hplaces⟩ := places_identify_siblings hbuilt
  obtain ⟨hselect, -, hquery⟩ := hplaces 7 1 "LI" (by decide) (by decide) hplain hfew
  have hindex : mixedItems.positionalIndex 7 = 1 := by decide
  have hstep : TagStep.placed mixedItems "LI" 7 = ⟨"LI", some 2⟩ := by rw [TagStep.placed, hindex]
  rw [hstep] at hselect hquery
  exact ⟨hbuilt, by decide, by decide, hplain, hfew, by decide, hnumbered 1 "li", by decide, hselect,
    hquery (by decide)⟩

end ElementLocator.Locator
