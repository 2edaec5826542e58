import ElementLocator.Css.Query
import ElementLocator.Proofs.Css.Matching
import ElementLocator.Proofs.Document.History

/-!
# Confined queries

What a query that is confined to the inside of a node finds, told by the parent links and the lists of children alone:
the first element for which the compounds of some alternative can be assigned to elements, each inside that node and
each in the relation of its combinator to the next. The search only stops below the boundary when it climbs, which is
enough because siblings are inside together. It never climbs through the document node, which matters only where that
node has been put below an element. Negations are left out: what a negation rules out is confined as well, so a
compound with one is not a question about the element alone.
-/

namespace ElementLocator.Css

variable {d : Document} {scope m n p : NodeId} {boundary : Option NodeId}

/-! ### Assignments -/

/-- The element lies below the scope. -/
structure Inside (d : Document) (scope n : NodeId) : Prop where
  element : d.isElement n = true
  above : d.nodes.Above scope n

/-- The node is a proper ancestor of the other one, and the document node is not between the two. -/
def Encloses (d : Document) (a n : NodeId) : Prop :=
  d.nodes.Above a n ∧ ¬(d.nodes.Above a Document.root ∧ d.nodes.Above Document.root n)

/-- The left node stands in the relation of a combinator to the right one: it encloses it, or it is the parent, the
nearest earlier sibling that is an element, or any earlier sibling. -/
def Combinator.Links (d : Document) (left right : NodeId) : Combinator → Prop
  | .descendant => Encloses d left right
  | .child => d.parent? right = some left
  | .nextSibling => ∃ p before between after,
      d.nodes.children p = before ++ left :: (between ++ right :: after) ∧ ∀ m ∈ between, d.isElement m = false
  | .laterSibling => ∃ p before between after, d.nodes.children p = before ++ left :: (between ++ right :: after)

/-- Nodes, one for each compound of a selector, match the compounds and are linked by the combinators between them. -/
inductive Complex.Assigned (d : Document) : Complex → List NodeId → Prop where
  | compound {conditions : List Simple} {n : NodeId} : matchesList d n [.compound conditions] = true →
      Assigned d (.compound conditions) [n]
  | combine {left : Complex} {combinator : Combinator} {conditions : List Simple} {front : List NodeId}
      {m n : NodeId} : Assigned d left (front ++ [m]) → combinator.Links d m n →
      matchesList d n [.compound conditions] = true →
      Assigned d (.combine left combinator conditions) (front ++ [m, n])

/-- The compounds of some alternative can be assigned to elements below the scope, the last one to the given node. -/
def Admits (d : Document) (scope : NodeId) (list : SelectorList) (n : NodeId) : Prop :=
  ∃ selector ∈ list, ∃ front, selector.Assigned d (front ++ [n]) ∧ ∀ m ∈ front ++ [n], Inside d scope m

/-! ### Selectors without negation -/

/-- The condition is not a negation. -/
def Simple.isPositive : Simple → Bool
  | .not _ => false
  | _ => true

/-- No condition of the selector is a negation. -/
def Complex.isPositive : Complex → Bool
  | .compound conditions => conditions.all Simple.isPositive
  | .combine left _ conditions => left.isPositive && conditions.all Simple.isPositive

/-- Only negations look at the boundary. -/
theorem Simple.holds_of_isPositive {condition : Simple} (h : condition.isPositive = true) :
    condition.holds d boundary n = condition.holds d none n := by
  cases condition with
  | not alternatives => cases h
  | _ => simp only [Simple.holds]

/-- Conditions without negation hold within any boundary exactly if they hold without one. -/
theorem Simple.allHold_of_isPositive {conditions : List Simple} (h : conditions.all Simple.isPositive = true) :
    Simple.allHold d boundary n conditions = Simple.allHold d none n conditions := by
  induction conditions with
  | nil => simp only [Simple.allHold]
  | cons condition rest ih =>
    rw [List.all_cons, Bool.and_eq_true] at h
    rw [Simple.allHold, Simple.allHold, Simple.holds_of_isPositive h.1, ih h.2]

/-- For an element, to meet conditions within a boundary is to match them as a selector of their own. -/
theorem allHold_iff_matchesList {conditions : List Simple} (h : conditions.all Simple.isPositive = true)
    (hn : d.isElement n = true) :
    Simple.allHold d boundary n conditions = true ↔ matchesList d n [.compound conditions] = true := by
  rw [Simple.allHold_of_isPositive h, matchesList, hn, matchesWithin, Complex.anyHolds, Complex.anyHolds,
    Complex.search]
  split <;> simp_all

/-! ### Links inside the scope -/

namespace Inside

/-- The scope is in the lineage of what is inside it. -/
theorem mem_lineage (h : Inside d scope n) (hd : d.Sound) : scope ∈ d.nodes.lineage n :=
  hd.wellFormed.mem_lineage_iff_above.2 (.inr h.above)

/-- The scope is not inside itself. -/
theorem ne (h : Inside d scope n) (hd : d.Sound) : n ≠ scope := by
  rintro rfl
  exact hd.wellFormed.not_above_self n h.above

/-- An element below the scope is inside it. -/
theorem of_mem_lineage (hd : d.Sound) (helement : d.isElement n = true) (hn : scope ∈ d.nodes.lineage n)
    (hne : n ≠ scope) : Inside d scope n :=
  ⟨helement, (hd.wellFormed.mem_lineage_iff_above.1 hn).resolve_left hne.symm⟩

/-- The elements below a node are those inside it. -/
theorem iff_mem_descendantElements (hd : d.Sound) : Inside d scope n ↔ n ∈ d.descendantElements scope := by
  rw [hd.mem_descendantElements_iff]
  constructor
  · exact fun h => ⟨⟨h.mem_lineage hd, h.ne hd⟩, h.element⟩
  · exact fun h => of_mem_lineage hd h.2 h.1.1 h.1.2

/-- Siblings are inside together. -/
theorem of_parent (h : Inside d scope n) (hparent : d.parent? m = d.parent? n) (helement : d.isElement m = true) :
    Inside d scope m := by
  refine ⟨helement, ?_⟩
  have habove := h.above
  rw [Forest.above_iff] at habove ⊢
  obtain ⟨p, hp, hscope⟩ := habove
  exact ⟨p, hparent.trans hp, hscope⟩

end Inside

/-- A node that encloses another one is reached by climbing through elements. -/
theorem mem_ancestorsWithin_of_encloses (hd : d.Sound) (hnest : d.ElementsNest) (hm : Inside d scope m)
    (h : Encloses d m n) : m ∈ ancestorsWithin d (some scope) n := by
  obtain ⟨habove, hbetween⟩ := h
  induction habove using Relation.TransGen.head_induction_on with
  | single hp =>
    have hparent := Document.parentElement?_eq_some_iff.2 ⟨hp, hm.element⟩
    rw [ancestorsWithin_of_parent hd hparent fun heq => hm.ne hd (Option.some.inj heq).symm]
    exact List.mem_cons_self
  | @head n p hp hpm ih =>
    have helement : d.isElement p = true := by
      refine (hnest p n hp).resolve_left ?_
      rintro rfl
      exact hbetween ⟨hpm, .single hp⟩
    have hparent := Document.parentElement?_eq_some_iff.2 ⟨hp, helement⟩
    have hne : some scope ≠ some p := by
      rintro ⟨rfl⟩
      exact hd.wellFormed.not_above_self scope (hpm.trans hm.above)
    rw [ancestorsWithin_of_parent hd hparent hne]
    exact List.mem_cons_of_mem p (ih fun h => hbetween ⟨h.1, .head hp h.2⟩)

/-- The ancestors that a search climbs to enclose the node, since the document node is not an element to climb
through. -/
theorem encloses_of_mem_ancestorsWithin (hd : d.Sound) (hm : m ∈ ancestorsWithin d boundary n) :
    Encloses d m n := by
  induction n using hd.wellFormed.induction_from_top with
  | step n ih =>
    rcases ancestorsWithin_cases hd boundary n with hnil | ⟨p, hp, -, hcons⟩
    · simp [hnil] at hm
    · obtain ⟨hparent, helement⟩ := Document.parentElement?_eq_some_iff.1 hp
      have hroot : d.nodes.Above Document.root n → d.nodes.Above Document.root p := by
        intro habove
        refine ((Forest.above_iff_of_parent hparent).1 habove).resolve_left ?_
        rintro rfl
        simp [hd.isElement_root] at helement
      rw [hcons] at hm
      rcases List.mem_cons.1 hm with rfl | hm
      · refine ⟨.single hparent, fun h => ?_⟩
        exact hd.wellFormed.not_above_self m ((hroot h.2).trans h.1)
      · obtain ⟨habove, hbetween⟩ := ih p hparent hm
        exact ⟨.head hparent habove, fun h => hbetween ⟨h.1, hroot h.2⟩⟩

/-- The nearest ancestor within the boundary is the parent element, unless the boundary is there. -/
theorem head?_ancestorsWithin_eq_some_iff (hd : d.Sound) :
    (ancestorsWithin d boundary n).head? = some m ↔ d.parentElement? n = some m ∧ boundary ≠ some m := by
  constructor
  · intro hm
    rcases ancestorsWithin_cases hd boundary n with hnil | ⟨p, hp, hne, hcons⟩
    · simp [hnil] at hm
    · rw [hcons] at hm
      cases hm
      exact ⟨hp, hne⟩
  · rintro ⟨hp, hne⟩
    rw [ancestorsWithin_of_parent hd hp hne]
    rfl

/-! ### Links to earlier siblings -/

/-- Siblings have the same parent. -/
theorem parent?_of_laterSibling (hd : d.Sound) (h : Combinator.laterSibling.Links d m n) :
    d.parent? m = d.parent? n := by
  obtain ⟨p, before, between, after, hchildren⟩ := h
  have hm : d.nodes.parent? m = some p := (hd.wellFormed.parent_iff m p).2 (by simp [hchildren])
  have hn : d.nodes.parent? n = some p := (hd.wellFormed.parent_iff n p).2 (by simp [hchildren])
  exact hm.trans hn.symm

/-- The next sibling is a later sibling. -/
theorem laterSibling_of_nextSibling (h : Combinator.nextSibling.Links d m n) :
    Combinator.laterSibling.Links d m n := by
  obtain ⟨p, before, between, after, hchildren, -⟩ := h
  exact ⟨p, before, between, after, hchildren⟩

/-- The elements in front of a node are its earlier siblings that are elements. -/
theorem mem_precedingElements_iff (hd : d.Sound) :
    m ∈ d.precedingElements n ↔ d.isElement m = true ∧ Combinator.laterSibling.Links d m n := by
  rw [Document.precedingElements, List.mem_filter, and_comm]
  refine and_congr_right fun _ => ?_
  constructor
  · intro hm
    obtain ⟨nearer, farther, hsplit⟩ := List.append_of_mem hm
    obtain ⟨p, after, hchildren⟩ := hd.wellFormed.preceding_eq_append_iff.1 hsplit
    exact ⟨p, farther.reverse, nearer.reverse, after, hchildren⟩
  · rintro ⟨p, before, between, after, hchildren⟩
    have hsplit : d.nodes.preceding n = between.reverse ++ m :: before.reverse :=
      hd.wellFormed.preceding_eq_append_iff.2 ⟨p, after, by simpa using hchildren⟩
    simp [hsplit]

/-- The nearest element in front of a node is the one that it follows with no other element in between. -/
theorem head?_precedingElements_eq_some_iff (hd : d.Sound) :
    (d.precedingElements n).head? = some m ↔ d.isElement m = true ∧ Combinator.nextSibling.Links d m n := by
  rw [Document.precedingElements, List.head?_filter, List.find?_eq_some_iff_append]
  refine and_congr_right fun _ => ?_
  constructor
  · rintro ⟨nearer, farther, hsplit, hnearer⟩
    obtain ⟨p, after, hchildren⟩ := hd.wellFormed.preceding_eq_append_iff.1 hsplit
    exact ⟨p, farther.reverse, nearer.reverse, after, hchildren, by simpa using hnearer⟩
  · rintro ⟨p, before, between, after, hchildren, hbetween⟩
    refine ⟨between.reverse, before.reverse, ?_, by simpa using hbetween⟩
    exact hd.wellFormed.preceding_eq_append_iff.2 ⟨p, after, by simpa using hchildren⟩

/-- The relation of a combinator within the scope is its link to the elements inside the scope. -/
theorem relates_iff_links (hd : d.Sound) (hnest : d.ElementsNest)
    (hn : Inside d scope n) (combinator : Combinator) :
    combinator.Relates d (some scope) m n ↔ Inside d scope m ∧ combinator.Links d m n := by
  have habove : m ∈ ancestorsWithin d (some scope) n → Inside d scope m := by
    intro hm
    obtain ⟨helement, -, hscope, hne⟩ := mem_ancestorsWithin hd (hn.mem_lineage hd) (hn.ne hd) hm
    exact .of_mem_lineage hd helement hscope hne
  cases combinator with
  | descendant =>
    constructor
    · exact fun hm => ⟨habove hm, encloses_of_mem_ancestorsWithin hd hm⟩
    · exact fun h => mem_ancestorsWithin_of_encloses hd hnest h.1 h.2
  | child =>
    constructor
    · intro hm
      obtain ⟨hparent, -⟩ := (head?_ancestorsWithin_eq_some_iff hd).1 hm
      exact ⟨habove (List.mem_of_head? hm), (Document.parentElement?_eq_some_iff.1 hparent).1⟩
    · rintro ⟨hm, hparent⟩
      refine (head?_ancestorsWithin_eq_some_iff hd).2
        ⟨Document.parentElement?_eq_some_iff.2 ⟨hparent, hm.element⟩, ?_⟩
      exact fun heq => hm.ne hd (Option.some.inj heq).symm
  | nextSibling =>
    rw [Combinator.Relates, head?_precedingElements_eq_some_iff hd]
    refine and_congr_left fun hlink => ⟨?_, Inside.element⟩
    exact hn.of_parent (parent?_of_laterSibling hd (laterSibling_of_nextSibling hlink))
  | laterSibling =>
    rw [Combinator.Relates, mem_precedingElements_iff hd]
    exact and_congr_left fun hlink => ⟨hn.of_parent (parent?_of_laterSibling hd hlink), Inside.element⟩

/-! ### Matches are assignments -/

/-- A single compound is assigned to one element, which matches it. -/
theorem assigned_compound_iff {conditions : List Simple} {front : List NodeId} :
    Complex.Assigned d (.compound conditions) (front ++ [n]) ↔
      front = [] ∧ matchesList d n [.compound conditions] = true := by
  constructor
  · generalize hnodes : front ++ [n] = nodes
    intro h
    cases h with
    | compound hmatch =>
      cases front with
      | nil =>
        cases hnodes
        exact ⟨rfl, hmatch⟩
      | cons a rest => simp at hnodes
  · rintro ⟨rfl, hmatch⟩
    exact .compound hmatch

/-- The last compound is assigned to an element that matches it and that the combinator links to the one in front. -/
theorem assigned_combine_iff {left : Complex} {combinator : Combinator} {conditions : List Simple}
    {front : List NodeId} : Complex.Assigned d (.combine left combinator conditions) (front ++ [n]) ↔
      matchesList d n [.compound conditions] = true ∧
        ∃ m earlier, combinator.Links d m n ∧ front = earlier ++ [m] ∧ left.Assigned d (earlier ++ [m]) := by
  constructor
  · generalize hnodes : front ++ [n] = nodes
    intro h
    cases h with
    | @combine _ _ _ earlier m _ hleft hlink hmatch =>
      obtain ⟨rfl, hlast⟩ := List.append_inj' (hnodes.trans (List.append_cons earlier m [_])) rfl
      cases hlast
      exact ⟨hmatch, m, earlier, hlink, rfl, hleft⟩
  · rintro ⟨hmatch, m, earlier, hlink, rfl, hleft⟩
    rw [List.append_assoc]
    exact .combine hleft hlink hmatch

/-- Inside the scope, a selector matches an element exactly if its compounds can be assigned to elements inside the
scope, the last one to that element. -/
theorem matches_iff_assigned (hd : d.Sound) (hnest : d.ElementsNest) :
    ∀ {selector : Complex}, selector.isPositive = true → ∀ {n : NodeId}, Inside d scope n →
      (Complex.Matches d (some scope) selector n ↔
        ∃ front, selector.Assigned d (front ++ [n]) ∧ ∀ m ∈ front, Inside d scope m)
  | .compound conditions, hpositive, n, hn => by
    rw [Complex.Matches, allHold_iff_matchesList hpositive hn.element]
    simp [assigned_compound_iff]
  | .combine left combinator conditions, hpositive, n, hn => by
    rw [Complex.isPositive, Bool.and_eq_true] at hpositive
    rw [Complex.Matches, allHold_iff_matchesList hpositive.2 hn.element]
    simp only [assigned_combine_iff, relates_iff_links hd hnest hn]
    constructor
    · rintro ⟨hmatch, m, ⟨hm, hlink⟩, hleft⟩
      obtain ⟨earlier, hassigned, hearlier⟩ := (matches_iff_assigned hd hnest hpositive.1 hm).1 hleft
      refine ⟨earlier ++ [m], ⟨hmatch, m, earlier, hlink, rfl, hassigned⟩, fun a ha => ?_⟩
      rcases List.mem_append.1 ha with ha | ha
      · exact hearlier a ha
      · rwa [List.mem_singleton.1 ha]
    · rintro ⟨front, ⟨hmatch, m, earlier, hlink, rfl, hassigned⟩, hfront⟩
      have hm : Inside d scope m := hfront m (by simp)
      refine ⟨hmatch, m, ⟨hm, hlink⟩, (matches_iff_assigned hd hnest hpositive.1 hm).2 ⟨earlier, hassigned, ?_⟩⟩
      exact fun a ha => hfront a (by simp [ha])

/-- An element below the scope matches a list exactly if the list admits it. -/
theorem admits_iff (hd : d.Sound) (hnest : d.ElementsNest) {list : SelectorList}
    (hpositive : ∀ selector ∈ list, selector.isPositive = true) :
    Admits d scope list n ↔ n ∈ d.descendantElements scope ∧ matchesWithin d (some scope) n list = true := by
  rw [← Inside.iff_mem_descendantElements hd, matchesWithin, anyHolds_iff hd]
  constructor
  · rintro ⟨selector, hselector, front, hassigned, hinside⟩
    have hn : Inside d scope n := hinside n (by simp)
    refine ⟨hn, selector, hselector, (matches_iff_assigned hd hnest (hpositive selector hselector) hn).2 ?_⟩
    exact ⟨front, hassigned, fun m hm => hinside m (List.mem_append_left _ hm)⟩
  · rintro ⟨hn, selector, hselector, hmatches⟩
    obtain ⟨front, hassigned, hfront⟩ :=
      (matches_iff_assigned hd hnest (hpositive selector hselector) hn).1 hmatches
    refine ⟨selector, hselector, front, hassigned, fun m hm => ?_⟩
    rcases List.mem_append.1 hm with hm | hm
    · exact hfront m hm
    · rwa [List.mem_singleton.1 hm]

/-! ### The first element -/

/-- A confined query finds the first element, in document order, to which an alternative of the list can be assigned
inside the scope, and finds nothing exactly if there is none. -/
theorem queryWithin_eq_first (hd : d.Built) (hnest : d.ElementsNest) {selector : String} {list : SelectorList}
    (hparse : parse selector = .ok list) (hpositive : ∀ complex ∈ list, complex.isPositive = true) :
    ∃ found, queryWithin d scope selector = .ok found ∧
      (∀ n, found = some n ↔ Admits d scope list n ∧
        ∀ m, Admits d scope list m → m = n ∨ [n, m].Sublist (d.nodes.preorder scope)) ∧
      (found = none ↔ ∀ n, ¬Admits d scope list n) := by
  let admitted := (d.descendantElements scope).filter (matchesWithin d (some scope) · list)
  have hadmits : ∀ n, Admits d scope list n ↔ n ∈ admitted := fun n => by
    rw [admits_iff hd.sound hnest hpositive, List.mem_filter]
  have hsublist : admitted.Sublist (d.nodes.preorder scope) := by
    refine List.filter_sublist.trans ?_
    rw [hd.sound.descendantElements_eq, hd.sound.wellFormed.preorder_eq]
    exact List.filter_sublist.trans (List.sublist_cons_self _ _)
  have hnodup := hd.sound.wellFormed.preorder_nodup scope
  refine ⟨admitted.head?, ?_, fun n => ?_, ?_⟩
  · simp only [queryWithin, hparse, bind, Except.bind, admitted, List.head?_filter]
  · simp only [hadmits]
    constructor
    · intro hhead
      refine ⟨List.mem_of_head? hhead, fun m hm => ?_⟩
      obtain ⟨t, ht, -, hfirst⟩ := exists_head?_eq_some hsublist hm
      rw [hhead, Option.some.injEq] at ht
      rw [ht]
      exact hfirst.imp_left Eq.symm
    · exact fun h => head?_eq_some_of_sublist hnodup hsublist h.1 h.2
  · simp only [hadmits, List.head?_eq_none_iff, List.eq_nil_iff_forall_not_mem]

/-- Two paragraphs with a comment between them in the document, and the document itself below two elements. -/
def buriedHistory : List Document.Edit :=
  [.element "main", .append 0 1, .element "p", .append 1 2, .comment "note", .append 1 3, .element "p", .append 1 4,
    .element "div", .append 5 0, .element "section", .append 6 5]

/-- The document that the history of the buried document leaves. -/
def buried : Document := Document.empty.edits buriedHistory

/-- The document arises from edits. -/
theorem built_buried : buried.Built := Document.built_edits (by decide)

/-- Below the main element, the second paragraph follows the first one, and it is what the query finds. -/
theorem queryWithin_eq_first_buried :
    buried.ElementsNest ∧ ∃ list, parse "MAIN > p + p" = .ok list ∧
      queryWithin buried Document.root "MAIN > p + p" = .ok (some 4) ∧
      Admits buried Document.root list 4 ∧ ¬Admits buried Document.root list 2 := by
  have hnest : buried.ElementsNest := by decide
  let list : SelectorList :=
    [.combine (.combine (.compound [.type "MAIN"]) .child [.type "p"]) .nextSibling [.type "p"]]
  have hparse : parse "MAIN > p + p" = .ok list := by cbv
  have hfound : queryWithin buried Document.root "MAIN > p + p" = .ok (some 4) := by decide +kernel
  obtain ⟨found, hquery, hfirst, -⟩ := queryWithin_eq_first built_buried hnest hparse (by decide)
  obtain rfl : found = some 4 := Except.ok.inj (hquery.symm.trans hfound)
  obtain ⟨hadmits, hbefore⟩ := (hfirst 4).1 rfl
  refine ⟨hnest, list, hparse, hfound, hadmits, fun hearlier => ?_⟩
  rcases hbefore 2 hearlier with heq | hbehind
  · cases heq
  · revert hbehind
    decide

/-- No search climbs through the document node, so an ancestor above it is not found from below, even inside the
scope. -/
theorem queryWithin_eq_none_of_buried :
    parse "div p" = .ok [.combine (.compound [.type "div"]) .descendant [.type "p"]] ∧ buried.Built ∧
      buried.ElementsNest ∧ Inside buried 6 5 ∧ Inside buried 6 2 ∧ buried.nodes.Above 5 2 ∧
      matchesList buried 5 [.compound [.type "div"]] = true ∧ matchesList buried 2 [.compound [.type "p"]] = true ∧
      queryWithin buried 6 "div p" = .ok none := by
  have hsection : buried.nodes.Above 6 5 := .single rfl
  have hdiv : buried.nodes.Above 5 2 := .head (b := 1) rfl (.head (b := 0) rfl (.single rfl))
  exact ⟨by cbv, built_buried, by decide, ⟨by decide, hsection⟩, ⟨by decide, hdiv.trans hsection⟩, hdiv,
    by decide +kernel, by decide +kernel, by decide +kernel⟩

end ElementLocator.Css
