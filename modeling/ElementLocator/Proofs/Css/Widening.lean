import ElementLocator.Proofs.Css.Confined

/-!
# Confined matches and free matches

A boundary takes elements away from what a search sees above an element. A selector then loses matches as long as the
combinators that climb stand under an even number of negations, for every negation turns fewer matches into more. Under
an odd number of negations a confined query can find an element that does not match freely: the negated part fails only
because it cannot see beyond the boundary.
-/

namespace ElementLocator.Css

variable {d : Document} {scope m n : NodeId} {even : Bool}

/-! ### Climbing under negations -/

/-- The combinator leads to ancestors. -/
def Combinator.climbs : Combinator → Bool
  | .descendant => true
  | .child => true
  | .nextSibling => false
  | .laterSibling => false

mutual

/-- The combinators that climb stand under an even number of negations, the condition itself being under an even or an
odd number of them. -/
def Simple.climbsEvenly (even : Bool) : Simple → Bool
  | .not alternatives => Complex.allClimbEvenly (!even) alternatives
  | _ => true

/-- The same for all conditions of a compound. -/
def Simple.allClimbEvenly (even : Bool) : List Simple → Bool
  | [] => true
  | condition :: rest => condition.climbsEvenly even && Simple.allClimbEvenly even rest

/-- The same for a complex selector. -/
def Complex.climbsEvenly (even : Bool) : Complex → Bool
  | .compound conditions => Simple.allClimbEvenly even conditions
  | .combine left combinator conditions =>
    (even || !combinator.climbs) && left.climbsEvenly even && Simple.allClimbEvenly even conditions

/-- The same for all alternatives. -/
def Complex.allClimbEvenly (even : Bool) : List Complex → Bool
  | [] => true
  | selector :: rest => selector.climbsEvenly even && Complex.allClimbEvenly even rest

end

/-- The boundary under an even number of negations, and none under an odd number. -/
def boundaryAt (scope : NodeId) (even : Bool) : Option NodeId := if even then some scope else none

/-! ### What a boundary takes away -/

/-- Without a boundary, the ancestors of a node are its lineage of elements behind the node. -/
theorem ancestorsWithin_none (d : Document) (n : NodeId) : ancestorsWithin d none n = (d.elementLineage n).drop 1 :=
  List.takeWhile_eq_self_iff.2 fun _ _ => rfl

/-- The ancestors inside a boundary are the nearest ones of all. -/
theorem ancestorsWithin_isPrefix (d : Document) (scope n : NodeId) :
    ancestorsWithin d (some scope) n <+: ancestorsWithin d none n := by
  rw [ancestorsWithin_none]
  exact List.takeWhile_prefix _

/-- A node that is no element bounds no search. -/
theorem ancestorsWithin_of_not_isElement (hscope : d.isElement scope = false) (n : NodeId) :
    ancestorsWithin d (some scope) n = ancestorsWithin d none n := by
  rw [ancestorsWithin_none]
  refine List.takeWhile_eq_self_iff.2 fun m hm => ?_
  have hm : d.isElement m = true := List.mem_takeWhile_imp hm
  rw [bne_iff_ne]
  rintro ⟨rfl⟩
  simp [hm] at hscope

/-- A combinator that does not climb ignores boundaries, and one that climbs relates fewer elements inside of one. -/
theorem relates_boundaryAt {combinator : Combinator} (heven : (even || !combinator.climbs) = true)
    (h : combinator.Relates d (boundaryAt scope even) m n) : combinator.Relates d (boundaryAt scope !even) m n := by
  cases combinator with
  | descendant =>
    obtain rfl : even = true := by simpa [Combinator.climbs] using heven
    exact (ancestorsWithin_isPrefix d scope n).subset h
  | child =>
    obtain rfl : even = true := by simpa [Combinator.climbs] using heven
    obtain ⟨farther, hfarther⟩ := ancestorsWithin_isPrefix d scope n
    have hhead : (ancestorsWithin d (some scope) n).head? = some m := h
    change (ancestorsWithin d none n).head? = some m
    rw [← hfarther, List.head?_append, hhead, Option.some_or]
  | nextSibling => exact h
  | laterSibling => exact h

/-! ### Matches are kept -/

mutual

/-- Under an even number of negations, a condition that climbs evenly holds freely if it holds inside the boundary;
under an odd number, it holds inside the boundary if it holds freely. A negation flips the direction: the match of an
alternative goes back. -/
theorem Simple.holds_boundaryAt (hd : d.Sound) (even : Bool) : ∀ (condition : Simple) (n : NodeId),
    condition.climbsEvenly even = true → condition.holds d (boundaryAt scope even) n = true →
      condition.holds d (boundaryAt scope !even) n = true
  | .not alternatives, n, heven, h => by
    rw [Simple.climbsEvenly] at heven
    rw [Simple.holds, Bool.not_eq_true'] at h ⊢
    rw [Bool.eq_false_iff] at h ⊢
    intro hholds
    have hback := Complex.anyHolds_boundaryAt hd (!even) alternatives n heven hholds
    rw [Bool.not_not] at hback
    exact h hback
  | .type _, n, _, h | .universal, n, _, h | .id _, n, _, h | .class _, n, _, h | .attribute _ _ _, n, _, h
  | .nth _, n, _, h | .root, n, _, h | .empty, n, _, h | .host, n, _, h => by
    rwa [Simple.holds_of_isPositive rfl] at h ⊢

/-- The same for all conditions of a compound. -/
theorem Simple.allHold_boundaryAt (hd : d.Sound) (even : Bool) : ∀ (conditions : List Simple) (n : NodeId),
    Simple.allClimbEvenly even conditions = true → Simple.allHold d (boundaryAt scope even) n conditions = true →
      Simple.allHold d (boundaryAt scope !even) n conditions = true
  | [], n, _, _ => by rw [Simple.allHold]
  | condition :: rest, n, heven, h => by
    rw [Simple.allClimbEvenly, Bool.and_eq_true] at heven
    rw [Simple.allHold, Bool.and_eq_true] at h ⊢
    exact ⟨Simple.holds_boundaryAt hd even condition n heven.1 h.1,
      Simple.allHold_boundaryAt hd even rest n heven.2 h.2⟩

/-- The same for a complex selector. -/
theorem Complex.matches_boundaryAt (hd : d.Sound) (even : Bool) : ∀ (selector : Complex) (n : NodeId),
    selector.climbsEvenly even = true → selector.Matches d (boundaryAt scope even) n →
      selector.Matches d (boundaryAt scope !even) n
  | .compound conditions, n, heven, h => by
    rw [Complex.climbsEvenly] at heven
    exact Simple.allHold_boundaryAt hd even conditions n heven h
  | .combine left combinator conditions, n, heven, ⟨hconditions, m, hrelates, hleft⟩ => by
    rw [Complex.climbsEvenly, Bool.and_eq_true, Bool.and_eq_true] at heven
    exact ⟨Simple.allHold_boundaryAt hd even conditions n heven.2 hconditions, m,
      relates_boundaryAt heven.1.1 hrelates, Complex.matches_boundaryAt hd even left m heven.1.2 hleft⟩

/-- The same for one of several alternatives. -/
theorem Complex.anyHolds_boundaryAt (hd : d.Sound) (even : Bool) : ∀ (alternatives : List Complex) (n : NodeId),
    Complex.allClimbEvenly even alternatives = true → Complex.anyHolds d (boundaryAt scope even) n alternatives = true →
      Complex.anyHolds d (boundaryAt scope !even) n alternatives = true
  | [], n, _, h => by simp only [Complex.anyHolds, Bool.false_eq_true] at h
  | selector :: rest, n, heven, h => by
    rw [Complex.allClimbEvenly, Bool.and_eq_true] at heven
    rw [Complex.anyHolds, Bool.or_eq_true, beq_iff_eq, search_eq_found_iff hd] at h ⊢
    exact h.imp (Complex.matches_boundaryAt hd even selector n heven.1)
      (Complex.anyHolds_boundaryAt hd even rest n heven.2)

end

/-- A confined match of a selector that climbs evenly is a free match. -/
theorem matchesWithin_none_of_climbsEvenly (hd : d.Sound) {list : SelectorList}
    (heven : ∀ selector ∈ list, selector.climbsEvenly true = true) (h : matchesWithin d (some scope) n list = true) :
    matchesWithin d none n list = true := by
  rw [matchesWithin, anyHolds_iff hd] at h ⊢
  obtain ⟨selector, hselector, hmatches⟩ := h
  exact ⟨selector, hselector, selector.matches_boundaryAt hd true n (heven selector hselector) hmatches⟩

/-! ### Boundaries that take nothing away -/

variable {b b' : Option NodeId}

/-- A combinator searches alike within two boundaries that give every node the same ancestors. -/
theorem Combinator.search_congr (hsame : ∀ n, ancestorsWithin d b n = ancestorsWithin d b' n)
    (combinator : Combinator) (search : NodeId → Outcome) (n : NodeId) :
    combinator.search d b search n = combinator.search d b' search n := by
  cases combinator <;> simp only [Combinator.search, hsame]

mutual

/-- Boundaries matter only through the ancestors that they leave. -/
theorem Simple.holds_congr (hsame : ∀ n, ancestorsWithin d b n = ancestorsWithin d b' n) :
    ∀ (condition : Simple) (n : NodeId), condition.holds d b n = condition.holds d b' n
  | .not alternatives, n => by
    rw [Simple.holds, Simple.holds, Complex.anyHolds_congr hsame alternatives n]
  | .type _, _ | .universal, _ | .id _, _ | .class _, _ | .attribute _ _ _, _ | .nth _, _ | .root, _ | .empty, _
  | .host, _ => by
    exact (Simple.holds_of_isPositive rfl).trans (Simple.holds_of_isPositive rfl).symm

/-- Conditions hold alike within two boundaries that give every node the same ancestors. -/
theorem Simple.allHold_congr (hsame : ∀ n, ancestorsWithin d b n = ancestorsWithin d b' n) :
    ∀ (conditions : List Simple) (n : NodeId), Simple.allHold d b n conditions = Simple.allHold d b' n conditions
  | [], _ => by rw [Simple.allHold, Simple.allHold]
  | condition :: rest, n => by
    rw [Simple.allHold, Simple.allHold, Simple.holds_congr hsame condition n, Simple.allHold_congr hsame rest n]

/-- A selector is searched alike within two boundaries that give every node the same ancestors. -/
theorem Complex.search_congr (hsame : ∀ n, ancestorsWithin d b n = ancestorsWithin d b' n) :
    ∀ (selector : Complex) (n : NodeId), selector.search d b n = selector.search d b' n
  | .compound conditions, n => by
    rw [Complex.search, Complex.search, Simple.allHold_congr hsame conditions n]
  | .combine left combinator conditions, n => by
    rw [Complex.search, Complex.search, Simple.allHold_congr hsame conditions n, combinator.search_congr hsame,
      funext (Complex.search_congr hsame left)]

/-- The same for one of several alternatives. -/
theorem Complex.anyHolds_congr (hsame : ∀ n, ancestorsWithin d b n = ancestorsWithin d b' n) :
    ∀ (alternatives : List Complex) (n : NodeId),
      Complex.anyHolds d b n alternatives = Complex.anyHolds d b' n alternatives
  | [], _ => by rw [Complex.anyHolds, Complex.anyHolds]
  | selector :: rest, n => by
    rw [Complex.anyHolds, Complex.anyHolds, Complex.search_congr hsame selector n,
      Complex.anyHolds_congr hsame rest n]

end

/-! ### Confined queries -/

/-- What a confined query finds lies inside the scope, and it matches freely too unless the scope is an element and
some combinator of the selector climbs under an odd number of negations. -/
theorem queryWithin_matches_freely (hd : d.Built) {selector : String}
    (hfound : queryWithin d scope selector = .ok (some n)) :
    ∃ list, parse selector = .ok list ∧ Inside d scope n ∧
      ((d.isElement scope = true → ∀ complex ∈ list, complex.climbsEvenly true = true) →
        matchesList d n list = true) := by
  cases hparse : parse selector with
  | error e => simp [queryWithin, hparse, bind, Except.bind] at hfound
  | ok list =>
    simp only [queryWithin, hparse, bind, Except.bind, Except.ok.injEq] at hfound
    have hinside : Inside d scope n := (Inside.iff_mem_descendantElements hd.sound).2 (List.mem_of_find?_eq_some hfound)
    have hconfined : matchesWithin d (some scope) n list = true := by
      simpa using List.find?_some hfound
    refine ⟨list, rfl, hinside, fun heven => ?_⟩
    rw [matchesList, hinside.element, Bool.true_and]
    cases hscope : d.isElement scope with
    | true => exact matchesWithin_none_of_climbsEvenly hd.sound (heven hscope) hconfined
    | false =>
      rw [matchesWithin, Complex.anyHolds_congr (ancestorsWithin_of_not_isElement hscope)] at hconfined
      exact hconfined

/-- A paragraph in a division in the document element. -/
def boxed : Document :=
  Document.empty.edits [.element "main", .append 0 1, .element "div", .append 1 2, .element "p", .append 2 3]

/-- Inside the division the query with a negation finds the paragraph, which also matches without the boundary. -/
theorem queryWithin_matches_freely_boxed :
    queryWithin boxed 1 "div > p:not(p + p)" = .ok (some 3) ∧ ∃ list, parse "div > p:not(p + p)" = .ok list ∧
      Inside boxed 1 3 ∧ matchesList boxed 3 list = true := by
  have hfound : queryWithin boxed 1 "div > p:not(p + p)" = .ok (some 3) := by decide +kernel
  have heven : (parse "div > p:not(p + p)").map (·.all (Complex.climbsEvenly true)) = .ok true := by decide +kernel
  obtain ⟨list, hparse, hinside, hfree⟩ := queryWithin_matches_freely (Document.built_edits (by decide)) hfound
  rw [hparse] at heven
  exact ⟨hfound, list, hparse, hinside, hfree fun _ => List.all_eq_true.1 (Except.ok.inj heven)⟩

/-- The negated part of the selector fails inside the division, because its first compound matches only the division
itself, so the query finds a paragraph that does not match freely. -/
theorem queryWithin_boxed_invents :
    boxed.Built ∧ queryWithin boxed 2 ":not(div p)" = .ok (some 3) ∧
      (parse ":not(div p)").map (matchesList boxed 3) = .ok false :=
  ⟨Document.built_edits (by decide), by decide +kernel, by decide +kernel⟩

end ElementLocator.Css
