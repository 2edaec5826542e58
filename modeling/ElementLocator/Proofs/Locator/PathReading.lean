import ElementLocator.Proofs.Locator.Selected

/-!
# The location path of a scope as it is read

Reading the location path of a scope gives one step for each of its entries, below an arbitrary descendant of where
the query starts to search. What the steps are is stated on its own, without regard to how they are written: a step
asks for children with the tag of the entry, for its place if it is not the first with that tag, and for all its
chosen values, whatever texts these are.
-/

namespace ElementLocator.Locator

open XPath (Expr Step)

variable {d : Document} {config : Config} {ops : List Operation} {scope : Scope} {x : Descriptor}
  {choice : String × String}

/-! ### What the steps are -/

/-- The expression writes out a text: as one literal, or as literals to be put together if the text has both kinds of
quotation marks. -/
inductive WritesOut (text : String) : Expr → Prop where
  | literal : '\'' ∉ text.toList ∨ '"' ∉ text.toList → WritesOut text (.literal text)
  | concat (parts : List String) : '\'' ∈ text.toList → '"' ∈ text.toList → String.join parts = text →
      WritesOut text (.call .concat (parts.map .literal))

/-- The expression asks whether an attribute contains a value. -/
inductive AsksFor (choice : String × String) : Expr → Prop where
  | contains {e : Expr} : WritesOut choice.2 e → AsksFor choice (.call .contains [.attribute choice.1, e])

/-- The predicates ask for all chosen values at once, in their order, or for nothing if the entry is not refined. -/
inductive Descriptor.Asks (descriptor : Descriptor) : List Expr → Prop where
  | nothing : descriptor.isRefined = false → Asks descriptor []
  | all {first : String × String} {others : List (String × String)} {e : Expr} {es : List Expr} :
      descriptor.isRefined = true → descriptor.choices = first :: others → AsksFor first e →
      List.Forall₂ AsksFor others es → Asks descriptor [es.foldl .and e]

/-- The step takes children with the tag of the described node, at its place if that is not the first, and asks for
the chosen values of those. -/
structure Descriptor.ReadAs (d : Document) (descriptor : Descriptor) (s : Step) : Prop where
  axis : s.axis = .child
  test : ∃ tag, d.localName? descriptor.node = some tag ∧ s.test = .name (Text.upper tag)
  predicates : ∃ asked, descriptor.Asks asked ∧ s.predicates =
    (if 0 < d.positionalIndex descriptor.node
      then [.number (Number.ofNat (d.positionalIndex descriptor.node + 1))] else []) ++ asked

/-! ### What the steps are written as -/

/-- A literal expression writes out its text. -/
theorem writesOut_literalExpr (text : String) : WritesOut text (XPath.literalExpr text.toList) := by
  have hneeds : XPath.needsConcat text.toList = true ↔ '\'' ∈ text.toList ∧ '"' ∈ text.toList := by
    simp [XPath.needsConcat]
  unfold XPath.literalExpr
  split
  · next hboth =>
    obtain ⟨hsingle, hdouble⟩ := hneeds.1 hboth
    apply WritesOut.concat _ hsingle hdouble
    rw [XPath.join_concatParts, String.ofList_toList]
  · next hone =>
    rw [hneeds, not_and_or] at hone
    rw [String.ofList_toList]
    exact .literal hone

/-- The expression of a choice asks for that choice. -/
theorem asksFor_choiceExpr (hlower : Text.lower choice.1 = choice.1) : AsksFor choice (choiceExpr choice) := by
  rw [choiceExpr, hlower]
  exact .contains (writesOut_literalExpr choice.2)

/-- An entry is refined if it has chosen values. -/
theorem isRefined_eq (hvalues : ∀ entry ∈ x.attributes, entry.2 ≠ []) : x.isRefined = !x.choices.isEmpty := by
  unfold Descriptor.isRefined Descriptor.choices
  cases hattributes : x.attributes with
  | nil => rfl
  | cons entry rest =>
    have hne : entry.2.map (fun value => (entry.1, value)) ≠ [] := by
      rw [Ne, List.map_eq_nil_iff]
      exact hvalues entry (hattributes ▸ List.mem_cons_self)
    obtain ⟨c, later, hcons⟩ := List.exists_cons_of_ne_nil hne
    rw [List.flatMap_cons, hcons]
    rfl

/-- The predicates of the choices ask for what the descriptor has chosen. -/
theorem asks_choicePredicates (hlower : ∀ entry ∈ x.attributes, Text.lower entry.1 = entry.1)
    (hvalues : ∀ entry ∈ x.attributes, entry.2 ≠ []) :
    x.Asks ((choicePredicates x.choices).map Prod.snd) := by
  have hasks : ∀ choice ∈ x.choices, AsksFor choice (choiceExpr choice) := by
    intro choice hchoice
    obtain ⟨entry, hentry, hvalue⟩ := List.mem_flatMap.1 hchoice
    obtain ⟨value, -, rfl⟩ := List.mem_map.1 hvalue
    exact asksFor_choiceExpr (hlower entry hentry)
  have hrefined := isRefined_eq hvalues
  cases hchoices : x.choices with
  | nil =>
    rw [hchoices] at hrefined
    exact .nothing hrefined
  | cons first others =>
    rw [hchoices] at hrefined hasks
    apply Descriptor.Asks.all hrefined hchoices (hasks first List.mem_cons_self)
    rw [List.forall₂_map_right_iff, List.forall₂_same]
    exact fun choice hchoice => hasks choice (List.mem_cons_of_mem first hchoice)

/-- The step that a descriptor is written as asks for what it says. -/
theorem readAs_toStep (hwritable : x.Writable d) (hvalues : ∀ entry ∈ x.attributes, entry.2 ≠ []) :
    x.ReadAs d (x.toStep d) := by
  obtain ⟨tag, htag, -⟩ := hwritable.tag
  have hplace : (placePredicates d x.node).map Prod.snd =
      if 0 < d.positionalIndex x.node then [Expr.number (Number.ofNat (d.positionalIndex x.node + 1))] else [] := by
    unfold placePredicates
    cases d.positionalIndex x.node with
    | zero => rfl
    | succ k =>
      rw [if_pos (Nat.succ_pos k)]
      rfl
  refine ⟨rfl, ⟨tag, htag, ?_⟩, _, asks_choicePredicates hwritable.lower hvalues, ?_⟩
  · rw [Descriptor.toStep, tagOf, Document.tagName?, htag, Option.map_some, Option.getD_some, String.ofList_toList]
  · rw [Descriptor.toStep, Descriptor.predicates, List.map_append, hplace]

/-! ### Runs -/

/-- After any run, the location path of each scope with entries is read as one step for each entry, in their order.
It starts at the document node or, if the two picks have an ancestor in common, at that ancestor. -/
theorem parse_query_run (hd : d.Built) (htags : d.PlainTags) (hnames : ∀ name ∈ config.attributes, Text.IsPlain name)
    (hne : ((Locator.start d config).run ops).handles scope ≠ []) :
    ∃ steps, XPath.parse ((((Locator.start d config).run ops).setGrammar .xpath).query scope) =
        .ok (match ((Locator.start d config).run ops).anchoring scope with
          | .absolute => ⟨true, .anywhere :: steps⟩
          | .relative => ⟨false, .here :: .anywhere :: steps⟩) ∧
      List.Forall₂ (fun h s => ∃ x, ((Locator.start d config).run ops).registry.get? h = some x ∧ x.ReadAs d s)
        (((Locator.start d config).run ops).handles scope) steps := by
  have hlayout := layout_run hd.sound config ops
  have hgrounded := grounded_descriptorsOf d config ops scope
  have hlegible : Legible d (((Locator.start d config).run ops).descriptorsOf scope) :=
    legible_run hd.sound (fun x _ => htags x.node) (plainChoices_of_attributes hnames ops)
  rw [query_run, parse_path (hlayout.descriptorsOf_ne_nil hne) hlegible.writable]
  generalize ((Locator.start d config).run ops) = l at *
  refine ⟨(l.descriptorsOf scope).map (Descriptor.toStep d), ?_, ?_⟩
  · cases l.anchoring scope <;> rfl
  · rw [List.forall₂_map_right_iff]
    have hmem : ∀ h ∈ l.handles scope, ∀ x, l.registry.get? h = some x → x ∈ l.descriptorsOf scope :=
      fun h hh x hx => List.mem_filterMap.2 ⟨h, hh, hx⟩
    have hall := (List.forall₂_and_left _ _).2 ⟨hmem, hlayout.forall₂_descriptorsOf scope⟩
    refine hall.imp fun h x hx => ?_
    have hxmem := hx.1 x hx.2
    exact ⟨x, hx.2, readAs_toStep (hlegible.writable x hxmem) (hgrounded x hxmem).values_ne_nil⟩

/-- On the page, the query of the main path is parsed as one step for each of the three handles. -/
theorem parse_query_run_page :
    ∃ steps, XPath.parse ((((Locator.start page {}).run pageOperations).setGrammar .xpath).query .main) =
        .ok ⟨true, .anywhere :: steps⟩ ∧
      List.Forall₂ (fun h s => ∃ x, ((Locator.start page {}).run pageOperations).registry.get? h = some x ∧
        x.ReadAs page s) [2, 1, 0] steps :=
  parse_query_run built_page (by decide) (by decide) (by decide)

end ElementLocator.Locator
