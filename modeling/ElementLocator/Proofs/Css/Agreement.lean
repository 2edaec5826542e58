import ElementLocator.Proofs.Css.Widening
import ElementLocator.Proofs.Document.Order

/-!
# Queries agree

All queries of one selector read the same set of matches. The search below a node lists other elements than the search
in the whole document, and the confined one climbs differently, but from the document node neither makes a difference:
the document node is no element, so no climb from element to element would pass it.
-/

namespace ElementLocator.Css

variable {d : Document} {scope : NodeId} {selector : String} {list : SelectorList}

/-- A boundary at the document node, which is no element, is never noticed. -/
theorem matchesWithin_root (hd : d.Sound) (n : NodeId) (list : SelectorList) :
    matchesWithin d (some Document.root) n list = matchesWithin d none n list :=
  Complex.anyHolds_congr (ancestorsWithin_of_not_isElement hd.isElement_root) list n

/-- A selector that is parsed selects the elements of the document that match it. -/
theorem queryAll_of_parse (h : parse selector = .ok list) :
    queryAll d selector = .ok (d.elements.filter (matchesList d · list)) := by
  rw [queryAll, h]
  rfl

/-- From a node, a selector that is parsed finds the first element below it that matches. -/
theorem queryFrom_of_parse (h : parse selector = .ok list) (scope : NodeId) :
    queryFrom d scope selector = .ok ((d.descendantElements scope).filter (matchesList d · list)).head? := by
  rw [queryFrom, h, List.head?_filter]
  rfl

/-- From the document node the confined search finds what the free one finds. -/
theorem queryWithin_root (hd : d.Sound) (selector : String) :
    queryWithin d Document.root selector = queryFrom d Document.root selector := by
  rw [queryWithin, queryFrom]
  refine bind_congr fun list => congrArg Except.ok ?_
  refine List.find?_congr fun n hn => ?_
  have helement : d.isElement n = true := (hd.mem_descendantElements_iff.1 hn).2
  rw [matchesWithin_root hd, matchesList, helement, Bool.true_and]

/-- The matches below an attached node are the matches of the document that are below it, in the same order. -/
theorem filter_descendantElements (hd : d.Sound) (hscope : d.isAttached scope = true) (p : NodeId → Bool) :
    ((d.descendantElements scope).filter p).Sublist (d.elements.filter p) ∧
      ∀ n, n ∈ (d.descendantElements scope).filter p ↔ n ∈ d.elements.filter p ∧ d.Above scope n := by
  refine ⟨(hd.descendantElements_sublist (Document.Sound.isAttached_iff.1 hscope)).filter p, fun n => ?_⟩
  rw [List.mem_filter, List.mem_filter, hd.mem_descendantElements_iff_above hscope, and_right_comm]

/-- A selector that does not parse makes every query fail alike. For one that does, the query for all elements lists the
attached elements that match, in document order and without repetition. Every other query of the whole document finds
the first of these, and a query from an attached node the first of these that are below it. -/
theorem queries_agree (hd : d.Built) (selector : String) :
    (∀ e, parse selector = .error e → queryAll d selector = .error e ∧ query d selector = .error e ∧
      ∀ scope, queryFrom d scope selector = .error e ∧ queryWithin d scope selector = .error e) ∧
    ∀ list, parse selector = .ok list → ∃ found, queryAll d selector = .ok found ∧
      d.Lists found (fun n => matchesList d n list = true) ∧ query d selector = .ok found.head? ∧
      queryFrom d Document.root selector = .ok found.head? ∧ queryWithin d Document.root selector = .ok found.head? ∧
      ∀ scope, d.isAttached scope = true → ∃ inner : List NodeId, inner.Sublist found ∧
        (∀ n, n ∈ inner ↔ n ∈ found ∧ d.Above scope n) ∧ queryFrom d scope selector = .ok inner.head? := by
  constructor
  · intro e hparse
    refine ⟨?_, ?_, fun scope => ⟨?_, ?_⟩⟩
    · rw [queryAll, hparse]
      rfl
    · rw [query, queryFrom, hparse]
      rfl
    · rw [queryFrom, hparse]
      rfl
    · rw [queryWithin, hparse]
      rfl
  · intro list hparse
    have hroot : queryFrom d Document.root selector = .ok (d.elements.filter (matchesList d · list)).head? :=
      queryFrom_of_parse hparse Document.root
    refine ⟨_, queryAll_of_parse hparse, hd.sound.lists_filter _, hroot, hroot,
      (queryWithin_root hd.sound selector).trans hroot, fun scope hscope => ?_⟩
    obtain ⟨hsublist, hmem⟩ := filter_descendantElements hd.sound hscope (matchesList d · list)
    exact ⟨_, hsublist, hmem, queryFrom_of_parse hparse scope⟩

/-- In the buried document the selector finds the paragraphs, although the document node is itself below elements. -/
theorem queries_agree_buried :
    buried.Built ∧ parse "p" = .ok [.compound [.type "p"]] ∧ ∃ found, queryAll buried "p" = .ok found ∧
      found = [2, 4] ∧ buried.Lists found (fun n => matchesList buried n [.compound [.type "p"]] = true) ∧
      queryWithin buried Document.root "p" = .ok (some 2) := by
  have hparse : parse "p" = .ok [.compound [.type "p"]] := by cbv
  obtain ⟨found, hall, hlists, -, -, hwithin, -⟩ := (queries_agree built_buried "p").2 _ hparse
  have hfound : queryAll buried "p" = .ok [2, 4] := by decide +kernel
  obtain rfl : found = [2, 4] := Except.ok.inj (hall.symm.trans hfound)
  exact ⟨built_buried, hparse, _, hall, rfl, hlists, hwithin⟩

end ElementLocator.Css
