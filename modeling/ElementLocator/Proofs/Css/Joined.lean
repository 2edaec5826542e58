import ElementLocator.Proofs.Css.Matching
import ElementLocator.Proofs.Css.Reading
import ElementLocator.Proofs.Document.Descent

/-!
# What joined compounds match

Compounds that are joined as children are matched from the last one upwards, each by the parent of the element that
matches the next one. The elements they match are therefore the ends of the ways down along which each child meets its
compound, wherever such a way begins. Joined as descendants, the same compounds match at least these elements.
-/

namespace ElementLocator.Css

variable {d : Document} {boundary : Option NodeId} {m n : NodeId} {joint joint' : Combinator} {c first first' : Compound}
  {others others' : List Compound}

/-- The element meets all conditions of the compound. -/
def Compound.MetBy (d : Document) (boundary : Option NodeId) (c : Compound) (n : NodeId) : Prop :=
  Simple.allHold d boundary n c.conditions = true

/-- Only elements have tags. -/
theorem Compound.MetBy.isElement (h : c.MetBy d boundary n) : d.isElement n = true := by
  have hall : (Simple.type c.tag).holds d boundary n = true ∧
      Simple.allHold d boundary n (c.pieces.flatMap Prod.snd) = true := Bool.and_eq_true_iff.1 h
  have htag := hall.1
  rw [Simple.holds, beq_iff_eq] at htag
  exact Document.isElement_of_localName htag

/-! ### Combinators -/

/-- Without a boundary, the child combinator leads to the parent element. -/
theorem relates_child_iff (h : d.Sound) : Combinator.child.Relates d none m n ↔ d.parentElement? n = some m := by
  cases hp : d.parentElement? n with
  | none => simp [Combinator.Relates, ancestorsWithin_of_none h hp]
  | some p =>
    have hboundary : (none : Option NodeId) ≠ some p := (Option.some_ne_none p).symm
    simp [Combinator.Relates, ancestorsWithin_of_parent h hp hboundary]

/-- A child is a descendant. -/
theorem relates_descendant_of_child (hm : Combinator.child.Relates d boundary m n) :
    Combinator.descendant.Relates d boundary m n := List.mem_of_head? hm

/-! ### Joined compounds -/

/-- The last compound is about the element itself, and what stands in front of it about an element in the relation of
the combinator. -/
theorem matches_concat : Complex.Matches d boundary (joinWith joint first (others ++ [c])) n ↔
    c.MetBy d boundary n ∧
      ∃ m, joint.Relates d boundary m n ∧ Complex.Matches d boundary (joinWith joint first others) m := by
  rw [joinWith, List.foldl_append]
  rfl

/-- Whatever meets the first compound meets the second one. -/
def Compound.Narrows (d : Document) (boundary : Option NodeId) (c c' : Compound) : Prop :=
  ∀ n, c.MetBy d boundary n → c'.MetBy d boundary n

/-- Further compounds keep apart what is to the left of them. -/
theorem matches_foldl_mono (hjoint : ∀ m n, joint.Relates d boundary m n → joint'.Relates d boundary m n)
    (hothers : List.Forall₂ (Compound.Narrows d boundary) others others') {left left' : Complex}
    (hleft : ∀ m, Complex.Matches d boundary left m → Complex.Matches d boundary left' m)
    (h : Complex.Matches d boundary (others.foldl (fun l c => .combine l joint c.conditions) left) n) :
    Complex.Matches d boundary (others'.foldl (fun l c => .combine l joint' c.conditions) left') n := by
  induction hothers generalizing left left' with
  | nil => exact hleft n h
  | cons hc _ ih =>
    apply ih _ h
    intro m hm
    obtain ⟨hmet, k, hk, hmatch⟩ := hm
    exact ⟨hc m hmet, k, hjoint k m hk, hleft k hmatch⟩

/-- What matches still does so if the combinator relates more elements and more of them meet the compounds. -/
theorem Complex.Matches.mono (hjoint : ∀ m n, joint.Relates d boundary m n → joint'.Relates d boundary m n)
    (hcompounds : List.Forall₂ (Compound.Narrows d boundary) (first :: others) (first' :: others'))
    (h : Complex.Matches d boundary (joinWith joint first others) n) :
    Complex.Matches d boundary (joinWith joint' first' others') n := by
  obtain ⟨hfirst, hothers⟩ := List.forall₂_cons.1 hcompounds
  have hleft : ∀ m, Complex.Matches d boundary (.compound first.conditions) m →
      Complex.Matches d boundary (.compound first'.conditions) m := hfirst
  exact matches_foldl_mono hjoint hothers hleft h

/-- What matches a joined selector is an element, as its last compound starts with a type. -/
theorem Complex.Matches.isElement (h : Complex.Matches d boundary (joinWith joint first others) n) :
    d.isElement n = true := by
  cases others using List.reverseRecOn with
  | nil => exact Compound.MetBy.isElement h
  | append_singleton others c => exact (matches_concat.1 h).1.isElement

/-- Where only elements nest, compounds that are joined as children match the ends of the ways down that meet them. -/
theorem matches_child_iff (h : d.Sound) (hnest : d.ElementsNest) (hn : Document.root ∈ d.nodes.lineage n) :
    Complex.Matches d none (joinWith .child first others) n ↔
      ∃ m, (m = Document.root ∨ m ∈ d.elements) ∧ d.Descends ((first :: others).map (Compound.MetBy d none)) m n := by
  induction others using List.reverseRecOn generalizing n with
  | nil =>
    rw [List.map_singleton]
    constructor
    · intro hmet
      obtain ⟨p, hp, hroot⟩ := h.exists_parent (Compound.MetBy.isElement hmet) hn
      exact ⟨p, (hnest p n hp).imp_right fun hp => h.mem_elements_of_lineage hp hroot,
        Document.descends_singleton.2 ⟨hp, hmet⟩⟩
    · intro hway
      obtain ⟨m, -, hway⟩ := hway
      exact (Document.descends_singleton.1 hway).2
  | append_singleton others c ih =>
    rw [matches_concat, ← List.cons_append, List.map_append, List.map_singleton]
    simp only [Document.descends_concat]
    constructor
    · intro hmatch
      obtain ⟨hmet, k, hk, hfront⟩ := hmatch
      obtain ⟨hp, -⟩ := Document.parentElement?_eq_some_iff.1 ((relates_child_iff h).1 hk)
      obtain ⟨m, hm, hway⟩ := (ih (h.root_mem_lineage_parent hmet.isElement hn hp)).1 hfront
      exact ⟨m, hm, k, hway, hp, hmet⟩
    · intro hway
      obtain ⟨m, hm, k, hway, hp, hmet⟩ := hway
      have hfront := (ih (h.root_mem_lineage_parent hmet.isElement hn hp)).2 ⟨m, hm, hway⟩
      have hk := Document.parentElement?_eq_some_iff.2 ⟨hp, hfront.isElement⟩
      exact ⟨hmet, k, (relates_child_iff h).2 hk, hfront⟩

/-! ### Queries -/

/-- Without a boundary, a query for one complex selector finds the elements that match it. -/
theorem matchesList_iff (h : d.Sound) {selector : Complex} (hn : d.isElement n = true) :
    matchesList d n [selector] = true ↔ Complex.Matches d none selector n := by
  rw [matchesList, hn, Bool.true_and, matchesWithin_iff h]

end ElementLocator.Css
