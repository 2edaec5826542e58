import ElementLocator.Css.Matching
import ElementLocator.Proofs.Document.Navigation
import ElementLocator.Proofs.Forest.Moves

/-!
# The search for a match finds one if there is one

`Matches` says what a complex selector means, without any search: each compound is met by an element, and elements
that are neighbours in the selector stand in the relation of the combinator between them. The search takes short
cuts: an outcome of failure can speak about other elements as well. `Justified` states what each outcome claims,
and the outcome of every search is justified.
-/

namespace ElementLocator.Css

variable {d : Document} {boundary : Option NodeId} {a m n p : NodeId}

/-! ### Ancestors and earlier siblings -/

/-- Within the boundary, the ancestors of a node are its parent element and the ancestors of that. -/
theorem ancestorsWithin_of_parent (h : d.Sound) (hp : d.parentElement? n = some p) (hboundary : boundary ≠ some p) :
    ancestorsWithin d boundary n = p :: ancestorsWithin d boundary p := by
  obtain ⟨above, hlineage⟩ := Document.Sound.exists_elementLineage_eq_cons d p
  rw [ancestorsWithin, ancestorsWithin, h.elementLineage_of_parent hp, List.drop_one, List.tail_cons, hlineage,
    List.takeWhile_cons_of_pos (by simpa using hboundary), List.drop_one, List.tail_cons]

/-- A parent element at the boundary ends the ancestors. -/
theorem ancestorsWithin_of_boundary (h : d.Sound) (hp : d.parentElement? n = some p) (hboundary : boundary = some p) :
    ancestorsWithin d boundary n = [] := by
  obtain ⟨above, hlineage⟩ := Document.Sound.exists_elementLineage_eq_cons d p
  rw [ancestorsWithin, h.elementLineage_of_parent hp, List.drop_one, List.tail_cons, hlineage,
    List.takeWhile_cons_of_neg (by simpa using hboundary)]

/-- Without a parent element there are no ancestors. -/
theorem ancestorsWithin_of_none (h : d.Sound) (hp : d.parentElement? n = none) :
    ancestorsWithin d boundary n = [] := by
  rw [ancestorsWithin, h.elementLineage_of_none hp]
  rfl

/-- The ancestors inside the boundary are none, or the parent and its ancestors. -/
theorem ancestorsWithin_cases (h : d.Sound) (boundary : Option NodeId) (n : NodeId) :
    ancestorsWithin d boundary n = [] ∨
      ∃ p, d.parentElement? n = some p ∧ boundary ≠ some p ∧
        ancestorsWithin d boundary n = p :: ancestorsWithin d boundary p := by
  cases hp : d.parentElement? n with
  | none => exact .inl (ancestorsWithin_of_none h hp)
  | some p =>
    by_cases hboundary : boundary = some p
    · exact .inl (ancestorsWithin_of_boundary h hp hboundary)
    · exact .inr ⟨p, rfl, hboundary, ancestorsWithin_of_parent h hp hboundary⟩

/-- The ancestors of an ancestor are those behind it. -/
theorem ancestorsWithin_suffix (h : d.Sound) (ha : a ∈ ancestorsWithin d boundary n) :
    ancestorsWithin d boundary a <:+ ancestorsWithin d boundary n := by
  induction n using h.wellFormed.induction_from_top with
  | step n ih =>
    rcases ancestorsWithin_cases h boundary n with hnil | ⟨p, hp, -, hcons⟩
    · simp [hnil] at ha
    · rw [hcons] at ha ⊢
      rcases List.mem_cons.1 ha with rfl | ha
      · exact List.suffix_cons a _
      · exact (ih p (Document.parentElement?_eq_some_iff.1 hp).1 ha).trans (List.suffix_cons p _)

/-- What stands behind an ancestor in the list of ancestors are the ancestors of that one. -/
theorem ancestorsWithin_of_append (h : d.Sound) {nearer farther : List NodeId}
    (hsplit : ancestorsWithin d boundary n = nearer ++ m :: farther) : ancestorsWithin d boundary m = farther := by
  induction nearer generalizing n with
  | nil =>
    rcases ancestorsWithin_cases h boundary n with hnil | ⟨p, -, -, hcons⟩
    · simp [hnil] at hsplit
    · rw [hcons, List.nil_append, List.cons.injEq] at hsplit
      exact hsplit.1 ▸ hsplit.2
  | cons q nearer ih =>
    rcases ancestorsWithin_cases h boundary n with hnil | ⟨p, -, -, hcons⟩
    · simp [hnil] at hsplit
    · rw [hcons, List.cons_append, List.cons.injEq] at hsplit
      exact ih hsplit.2

/-- What is behind a node in the list of nodes in front of another one is in front of that node. -/
theorem preceding_of_append (h : d.Sound) {nearer farther : List NodeId}
    (hsplit : d.nodes.preceding n = nearer ++ m :: farther) :
    d.parent? m = d.parent? n ∧ d.nodes.preceding m = farther := by
  obtain ⟨p, after, hchildren⟩ := h.wellFormed.preceding_eq_append_iff.1 hsplit
  obtain ⟨hm, hpreceding⟩ := h.wellFormed.preceding_of_children hchildren
  rw [List.reverse_reverse] at hpreceding
  have hn : d.nodes.parent? n = some p := (h.wellFormed.parent_iff n p).2 (by simp [hchildren])
  exact ⟨hm.trans hn.symm, hpreceding⟩

/-- What stands behind an element in the list of earlier siblings are the earlier siblings of that element. -/
theorem precedingElements_of_append (h : d.Sound) {nearer farther : List NodeId}
    (hsplit : d.precedingElements n = nearer ++ m :: farther) :
    d.parent? m = d.parent? n ∧ d.precedingElements m = farther := by
  obtain ⟨front, back, hfront, -, hback⟩ := List.filter_eq_append_iff.1 hsplit
  obtain ⟨skipped, rest, rfl, -, -, hrest⟩ := List.filter_eq_cons_iff.1 hback
  rw [← List.append_assoc] at hfront
  obtain ⟨hparent, hpreceding⟩ := preceding_of_append h hfront
  exact ⟨hparent, by rw [Document.precedingElements, hpreceding, hrest]⟩

/-- An earlier sibling has the same parent, and its earlier siblings are earlier siblings as well. -/
theorem precedingElements_of_mem (h : d.Sound) (hm : m ∈ d.precedingElements n) :
    d.parent? m = d.parent? n ∧ ∀ a ∈ d.precedingElements m, a ∈ d.precedingElements n := by
  obtain ⟨nearer, farther, hsplit⟩ := List.append_of_mem hm
  obtain ⟨hparent, hfarther⟩ := precedingElements_of_append h hsplit
  refine ⟨hparent, fun a ha => ?_⟩
  rw [hsplit, List.mem_append, List.mem_cons]
  exact .inr (.inr (hfarther ▸ ha))

/-- Siblings have the same ancestors within the boundary. -/
theorem ancestorsWithin_congr (h : d.Sound) (hparent : d.parent? m = d.parent? n) :
    ancestorsWithin d boundary m = ancestorsWithin d boundary n := by
  have hlineage : (d.nodes.lineage m).drop 1 = (d.nodes.lineage n).drop 1 := by
    have heq : d.nodes.parent? m = d.nodes.parent? n := hparent
    cases hp : d.nodes.parent? n with
    | none => simp [Forest.WellFormed.lineage_of_parent_none hp,
        Forest.WellFormed.lineage_of_parent_none (heq.trans hp)]
    | some p => simp [h.wellFormed.lineage_of_parent hp, h.wellFormed.lineage_of_parent (heq.trans hp)]
  rw [ancestorsWithin, ancestorsWithin, Document.elementLineage, Document.elementLineage, hlineage]
  rfl

/-- Siblings have the same ancestors. -/
theorem ancestorsWithin_of_sibling (h : d.Sound) (hm : m ∈ n :: d.precedingElements n) :
    ancestorsWithin d boundary m = ancestorsWithin d boundary n := by
  rcases List.mem_cons.1 hm with rfl | hm
  · rfl
  · exact ancestorsWithin_congr h (precedingElements_of_mem h hm).1

/-- The ancestors of a node inside one that stands above it are elements between the two. -/
theorem mem_ancestorsWithin (h : d.Sound) (ha : a ∈ d.nodes.lineage n) (hne : n ≠ a)
    (hm : m ∈ ancestorsWithin d (some a) n) :
    d.isElement m = true ∧ m ∈ d.nodes.lineage n ∧ a ∈ d.nodes.lineage m ∧ m ≠ a := by
  induction n using h.wellFormed.induction_from_top with
  | step n ih =>
    rcases ancestorsWithin_cases h (some a) n with hnil | ⟨p, hp, hboundary, hcons⟩
    · simp [hnil] at hm
    · obtain ⟨hparent, helement⟩ := Document.parentElement?_eq_some_iff.1 hp
      have hpne : p ≠ a := fun heq => hboundary (congrArg some heq.symm)
      have habove : a ∈ d.nodes.lineage p := by
        rcases h.wellFormed.mem_lineage_iff.1 ha with heq | ⟨q, hq, haq⟩
        · exact absurd heq.symm hne
        · rw [show d.nodes.parent? n = some p from hparent, Option.some.injEq] at hq
          rwa [hq]
      have hlineage := h.wellFormed.parent_mem_lineage hparent
      rw [hcons] at hm
      rcases List.mem_cons.1 hm with rfl | hm
      · exact ⟨helement, hlineage, habove, hpne⟩
      · obtain ⟨hm, hmp, hrest⟩ := ih p hparent habove hpne hm
        exact ⟨hm, h.wellFormed.mem_lineage_trans hmp hlineage, hrest⟩

/-! ### Matching without a search -/

/-- The element to the left of a combinator stands in its relation to the element to the right. -/
def Combinator.Relates (d : Document) (boundary : Option NodeId) (left right : NodeId) : Combinator → Prop
  | .descendant => left ∈ ancestorsWithin d boundary right
  | .child => (ancestorsWithin d boundary right).head? = some left
  | .nextSibling => (d.precedingElements right).head? = some left
  | .laterSibling => left ∈ d.precedingElements right

/-- Elements meet the compounds and stand in the relations of the combinators, the given element being the last. -/
def Complex.Matches (d : Document) (boundary : Option NodeId) : Complex → NodeId → Prop
  | .compound conditions, n => Simple.allHold d boundary n conditions = true
  | .combine left combinator conditions, n =>
    Simple.allHold d boundary n conditions = true ∧
      ∃ m, combinator.Relates d boundary m n ∧ Complex.Matches d boundary left m

/-- What the outcome of a search that begins at an element claims about the elements with a property. -/
def Justified (d : Document) (boundary : Option NodeId) (P : NodeId → Prop) (n : NodeId) : Outcome → Prop
  | .found => P n
  | .failed => ¬P n
  | .failedForSiblings => ∀ m ∈ n :: d.precedingElements n, ¬P m
  | .failedForAll => ∀ a ∈ n :: ancestorsWithin d boundary n, ∀ m ∈ a :: d.precedingElements a, ¬P m

/-- A justified outcome other than success says that the node has no match. -/
theorem Justified.not_of_ne_found {P : NodeId → Prop} {outcome : Outcome} (h : Justified d boundary P n outcome)
    (hne : outcome ≠ .found) : ¬P n := by
  cases outcome with
  | found => exact absurd rfl hne
  | failed => exact h
  | failedForSiblings => exact h n List.mem_cons_self
  | failedForAll => exact h n List.mem_cons_self n List.mem_cons_self

/-- Outcomes of failure carry over to a stronger property, and a match to a weaker one at the element itself. -/
theorem Justified.mono {P Q : NodeId → Prop} {outcome : Outcome} (h : Justified d boundary P n outcome)
    (hfound : P n → Q n) (hfailed : ∀ m, Q m → P m) : Justified d boundary Q n outcome := by
  cases outcome with
  | found => exact hfound h
  | failed => exact fun hn => h (hfailed n hn)
  | failedForSiblings => exact fun m hm hQ => h m hm (hfailed m hQ)
  | failedForAll => exact fun a ha m hm hQ => h a ha m hm (hfailed m hQ)

/-! ### The outcomes are justified -/

section Search

variable {P : NodeId → Prop} {search : NodeId → Outcome}

/-- The element has an element with the property to its left. -/
def HasLeft (d : Document) (boundary : Option NodeId) (P : NodeId → Prop) (combinator : Combinator) (n : NodeId) :
    Prop := ∃ m, combinator.Relates d boundary m n ∧ P m

/-- A combinator of siblings looks at earlier siblings. -/
theorem mem_preceding_of_relates {combinator : Combinator}
    (hsiblings : combinator = .nextSibling ∨ combinator = .laterSibling) (hm : combinator.Relates d boundary m n) :
    m ∈ d.precedingElements n := by
  rcases hsiblings with rfl | rfl
  · exact List.mem_of_head? hm
  · exact hm

/-- If no earlier sibling has the property, no sibling from here on has one to its left. -/
theorem justified_failedForSiblings (h : d.Sound) {combinator : Combinator}
    (hsiblings : combinator = .nextSibling ∨ combinator = .laterSibling)
    (hnone : ∀ m ∈ d.precedingElements n, ¬P m) :
    Justified d boundary (HasLeft d boundary P combinator) n .failedForSiblings := by
  intro y hy hleft
  obtain ⟨z, hz, hPz⟩ := hleft
  refine hnone z ?_ hPz
  have hzy := mem_preceding_of_relates hsiblings hz
  rcases List.mem_cons.1 hy with rfl | hy
  · exact hzy
  · exact (precedingElements_of_mem h hy).2 z hzy

/-- If moreover no ancestor and no earlier sibling of one has the property, none has one to its left. -/
theorem justified_failedForAll_siblings (h : d.Sound) {combinator : Combinator}
    (hsiblings : combinator = .nextSibling ∨ combinator = .laterSibling)
    (hnone : ∀ m ∈ d.precedingElements n, ¬P m)
    (habove : ∀ a ∈ ancestorsWithin d boundary n, ∀ m ∈ d.precedingElements a, ¬P m) :
    Justified d boundary (HasLeft d boundary P combinator) n .failedForAll := by
  intro a ha
  rcases List.mem_cons.1 ha with rfl | ha
  · exact justified_failedForSiblings h hsiblings hnone
  · exact justified_failedForSiblings h hsiblings (habove a ha)

/-- If no ancestor has the property, none has one above it, whether as parent or farther up. -/
theorem justified_failedForAll_ancestors (h : d.Sound) {combinator : Combinator}
    (hancestors : combinator = .child ∨ combinator = .descendant)
    (hnone : ∀ m ∈ ancestorsWithin d boundary n, ¬P m) :
    Justified d boundary (HasLeft d boundary P combinator) n .failedForAll := by
  intro a ha y hy hleft
  obtain ⟨z, hz, hPz⟩ := hleft
  have hzy : z ∈ ancestorsWithin d boundary y := by
    rcases hancestors with rfl | rfl
    · exact List.mem_of_head? hz
    · exact hz
  rw [ancestorsWithin_of_sibling h hy] at hzy
  refine hnone z ?_ hPz
  rcases List.mem_cons.1 ha with rfl | ha
  · exact hzy
  · exact (ancestorsWithin_suffix h ha).subset hzy

/-- A failure for all at a sibling speaks about the earlier siblings of all ancestors. -/
theorem Justified.none_above (h : d.Sound) (hparent : d.parent? m = d.parent? n)
    (hm : Justified d boundary P m .failedForAll) :
    ∀ a ∈ ancestorsWithin d boundary n, ∀ x ∈ d.precedingElements a, ¬P x := by
  rw [← ancestorsWithin_congr h hparent]
  exact fun a ha x hx => hm a (List.mem_cons_of_mem m ha) x (List.mem_cons_of_mem a hx)

/-- The search at the nearest earlier sibling. -/
theorem justified_nextSibling (h : d.Sound) (hsearch : ∀ m, Justified d boundary P m (search m)) (n : NodeId) :
    Justified d boundary (HasLeft d boundary P .nextSibling) n
      (Combinator.nextSibling.search d boundary search n) := by
  rw [Combinator.search]
  cases hpreceding : d.precedingElements n with
  | nil => exact justified_failedForSiblings h (.inl rfl) (by simp [hpreceding])
  | cons m rest =>
    obtain ⟨hparent, hrest⟩ :=
      precedingElements_of_append h (show d.precedingElements n = [] ++ m :: rest from hpreceding)
    have hm := hsearch m
    simp only [searchAmong, if_true]
    cases houtcome : search m with
    | found =>
      rw [houtcome] at hm
      exact ⟨m, by rw [Combinator.Relates, hpreceding]; rfl, hm⟩
    | failed =>
      rw [houtcome] at hm
      intro hleft
      obtain ⟨z, hz, hPz⟩ := hleft
      rw [Combinator.Relates, hpreceding] at hz
      cases hz
      exact hm hPz
    | failedForSiblings =>
      rw [houtcome] at hm
      refine justified_failedForSiblings h (.inl rfl) ?_
      rw [hpreceding, ← hrest]
      exact hm
    | failedForAll =>
      rw [houtcome] at hm
      refine justified_failedForAll_siblings h (.inl rfl) ?_ (hm.none_above h hparent)
      rw [hpreceding, ← hrest]
      exact hm m List.mem_cons_self

/-- The search among the farther of the earlier siblings, after the nearer ones have been searched in vain. -/
theorem justified_laterSibling (h : d.Sound) (hsearch : ∀ m, Justified d boundary P m (search m))
    {nearer candidates : List NodeId} (hsplit : d.precedingElements n = nearer ++ candidates)
    (hnearer : ∀ m ∈ nearer, ¬P m) :
    Justified d boundary (HasLeft d boundary P .laterSibling) n
      (searchAmong search (· != .failed) .failedForSiblings candidates) := by
  induction candidates generalizing nearer with
  | nil =>
    rw [List.append_nil] at hsplit
    exact justified_failedForSiblings h (.inr rfl) (hsplit ▸ hnearer)
  | cons m rest ih =>
    obtain ⟨hparent, hrest⟩ := precedingElements_of_append h hsplit
    have hm := hsearch m
    rw [searchAmong]
    cases houtcome : search m with
    | found =>
      rw [houtcome] at hm
      exact ⟨m, by rw [Combinator.Relates, hsplit]; simp, hm⟩
    | failed =>
      rw [houtcome] at hm
      refine ih (show d.precedingElements n = (nearer ++ [m]) ++ rest by simp [hsplit]) ?_
      exact List.forall_mem_append.2 ⟨hnearer, List.forall_mem_singleton.2 hm⟩
    | failedForSiblings =>
      rw [houtcome] at hm
      refine justified_failedForSiblings h (.inr rfl) ?_
      rw [hsplit, ← hrest]
      exact List.forall_mem_append.2 ⟨hnearer, hm⟩
    | failedForAll =>
      rw [houtcome] at hm
      refine justified_failedForAll_siblings h (.inr rfl) ?_ (hm.none_above h hparent)
      rw [hsplit, ← hrest]
      exact List.forall_mem_append.2 ⟨hnearer, hm m List.mem_cons_self⟩

/-- The search at the parent. Without a match at the parent, the siblings have none either. -/
theorem justified_child (h : d.Sound) (hsearch : ∀ m, Justified d boundary P m (search m)) (n : NodeId) :
    Justified d boundary (HasLeft d boundary P .child) n (Combinator.child.search d boundary search n) := by
  rw [Combinator.search]
  rcases ancestorsWithin_cases h boundary n with hnil | ⟨p, hp, hboundary, hcons⟩
  · rw [hnil]
    exact justified_failedForAll_ancestors h (.inl rfl) (by simp [hnil])
  · have hm := hsearch p
    have hsiblings : ¬P p → Justified d boundary (HasLeft d boundary P .child) n .failedForSiblings := by
      intro hp y hy hleft
      obtain ⟨z, hz, hPz⟩ := hleft
      rw [Combinator.Relates, ancestorsWithin_of_sibling h hy, hcons] at hz
      cases hz
      exact hp hPz
    rw [hcons]
    dsimp only [List.head?_cons]
    cases houtcome : search p with
    | found =>
      rw [houtcome] at hm
      exact ⟨p, by rw [Combinator.Relates, hcons]; rfl, hm⟩
    | failed => exact hsiblings (hm.not_of_ne_found (by simp [houtcome]))
    | failedForSiblings => exact hsiblings (hm.not_of_ne_found (by simp [houtcome]))
    | failedForAll =>
      rw [houtcome] at hm
      refine justified_failedForAll_ancestors h (.inl rfl) ?_
      rw [hcons]
      exact fun x hx => hm x hx x List.mem_cons_self

/-- The search among the farther ancestors, after the nearer ones have been searched in vain. -/
theorem justified_descendant (h : d.Sound) (hsearch : ∀ m, Justified d boundary P m (search m))
    {nearer candidates : List NodeId} (hsplit : ancestorsWithin d boundary n = nearer ++ candidates)
    (hnearer : ∀ m ∈ nearer, ¬P m) :
    Justified d boundary (HasLeft d boundary P .descendant) n
      (searchAmong search (fun o => o == .found || o == .failedForAll) .failedForAll candidates) := by
  induction candidates generalizing nearer with
  | nil =>
    rw [List.append_nil] at hsplit
    exact justified_failedForAll_ancestors h (.inr rfl) (hsplit ▸ hnearer)
  | cons m rest ih =>
    have hrest := ancestorsWithin_of_append h hsplit
    have hm := hsearch m
    have hcontinue : ¬P m → Justified d boundary (HasLeft d boundary P .descendant) n
        (searchAmong search (fun o => o == .found || o == .failedForAll) .failedForAll rest) := by
      intro hnot
      refine ih (show ancestorsWithin d boundary n = (nearer ++ [m]) ++ rest by simp [hsplit]) ?_
      exact List.forall_mem_append.2 ⟨hnearer, List.forall_mem_singleton.2 hnot⟩
    rw [searchAmong]
    cases houtcome : search m with
    | found =>
      rw [houtcome] at hm
      exact ⟨m, by rw [Combinator.Relates, hsplit]; simp, hm⟩
    | failed => exact hcontinue (hm.not_of_ne_found (by simp [houtcome]))
    | failedForSiblings => exact hcontinue (hm.not_of_ne_found (by simp [houtcome]))
    | failedForAll =>
      rw [houtcome] at hm
      refine justified_failedForAll_ancestors h (.inr rfl) ?_
      rw [hsplit, ← hrest]
      exact List.forall_mem_append.2 ⟨hnearer, fun x hx => hm x hx x List.mem_cons_self⟩

/-- The search to the left of a combinator is justified if the searches from there are. -/
theorem justified_combinator (h : d.Sound) (hsearch : ∀ m, Justified d boundary P m (search m))
    (combinator : Combinator) (n : NodeId) :
    Justified d boundary (HasLeft d boundary P combinator) n (combinator.search d boundary search n) := by
  cases combinator with
  | nextSibling => exact justified_nextSibling h hsearch n
  | laterSibling => exact justified_laterSibling h hsearch (List.nil_append _).symm nofun
  | child => exact justified_child h hsearch n
  | descendant => exact justified_descendant h hsearch (List.nil_append _).symm nofun

end Search

/-- The outcome of every search is justified. -/
theorem justified_search (h : d.Sound) : ∀ (selector : Complex) (n : NodeId),
    Justified d boundary (Complex.Matches d boundary selector) n (Complex.search d boundary n selector)
  | .compound conditions, n => by
    rw [Complex.search]
    split
    · next hn => exact hn
    · next hn => exact fun hmatch => hn hmatch
  | .combine left combinator conditions, n => by
    have hleft := justified_combinator h (fun m => justified_search h left m) combinator n
    rw [Complex.search]
    split
    · next hn => exact hleft.mono (fun hm => ⟨hn, hm⟩) fun m hm => hm.2
    · next hn => exact fun hmatch => hn hmatch.1

/-- The search finds a match exactly where there is one. -/
theorem search_eq_found_iff (h : d.Sound) (selector : Complex) (n : NodeId) :
    Complex.search d boundary n selector = .found ↔ Complex.Matches d boundary selector n := by
  have hjustified : Justified d boundary _ n _ := justified_search h selector n
  constructor
  · intro hfound
    rw [hfound] at hjustified
    exact hjustified
  · intro hmatch
    by_contra hne
    exact hjustified.not_of_ne_found hne hmatch

/-- One of the alternatives holds exactly if one of them matches. -/
theorem anyHolds_iff (h : d.Sound) (list : SelectorList) (n : NodeId) :
    Complex.anyHolds d boundary n list = true ↔ ∃ selector ∈ list, Complex.Matches d boundary selector n := by
  induction list with
  | nil => simp [Complex.anyHolds]
  | cons selector list ih =>
    rw [Complex.anyHolds, Bool.or_eq_true, beq_iff_eq, search_eq_found_iff h, ih]
    simp

/-- A selector alone matches within the boundary exactly if its compounds can be matched from right to left. -/
theorem matchesWithin_iff (h : d.Sound) {selector : Complex} :
    matchesWithin d boundary n [selector] = true ↔ Complex.Matches d boundary selector n := by
  rw [matchesWithin, anyHolds_iff h]
  simp

end ElementLocator.Css
