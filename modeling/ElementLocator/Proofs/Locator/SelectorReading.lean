import ElementLocator.Proofs.Locator.Selected

/-!
# The selector of a scope as it is read

Reading the selector of a scope gives one complex selector with a compound for each of the entries, joined as
descendants. What a compound asks for is stated on its own, without regard to how it is written: the tag of the entry,
its place if it is not the first with that tag, and each of its chosen values once. A word of `class` is asked for as a
class and the value of `id` as an identifier. Every other attribute has a single chosen value, so that nothing is lost
by writing the first one only.

Names and values have to be free of U+0000, which has no escape. Apart from that they can be any texts.
-/

namespace ElementLocator

namespace Css

/-- The complex selector consists of these compounds, from the left to the right, joined as descendants. -/
inductive Complex.Descendants : Complex → List (List Simple) → Prop where
  | compound (conditions : List Simple) : Descendants (.compound conditions) [conditions]
  | combine {left : Complex} {compounds : List (List Simple)} (conditions : List Simple) :
      Descendants left compounds → Descendants (.combine left .descendant conditions) (compounds ++ [conditions])

/-- Compounds joined by descendant combinators are read as a chain of descendants. -/
theorem descendants_joinWith (first : Compound) (others : List Compound) :
    (joinWith .descendant first others).Descendants ((first :: others).map Compound.conditions) := by
  induction others using List.reverseRecOn with
  | nil => exact .compound first.conditions
  | append_singleton others c ih =>
    rw [joinWith, List.foldl_append, ← List.cons_append, List.map_append]
    exact .combine c.conditions ih

end Css

namespace Locator

open Css (Compound Simple)

variable {d : Document} {config : Config} {ops : List Operation} {scope : Scope} {x : Descriptor}
  {choice : String × String} {name value : String} {attributes : AttributeValues} {entry : String × List String}

/-! ### What the compounds are -/

/-- What the compound asks for a chosen value. -/
def conditionFor (choice : String × String) : Simple :=
  if choice.1 = "class" then .class choice.2
  else if choice.1 = "id" then .id choice.2
  else .attribute false choice.1 (.value .equals choice.2 (Css.caselessAttributes.contains choice.1))

/-- The compound asks for the tag of the described node, for its place if that is not the first, and for the chosen
values, which are the included ones, each of them once. -/
structure Descriptor.AskedBy (d : Document) (descriptor : Descriptor) (conditions : List Simple) : Prop where
  shape : ∃ tag, d.localName? descriptor.node = some tag ∧ conditions = .type (Text.upper tag) ::
    ((if 0 < d.positionalIndex descriptor.node
        then [.nth ⟨0, (d.positionalIndex descriptor.node + 1 : Nat), true, false⟩] else []) ++
      descriptor.choices.map conditionFor)
  included : ∀ name value, (name, value) ∈ descriptor.choices ↔ descriptor.includes name value = true
  once : descriptor.choices.Nodup
  whole : ∀ name v w, name ≠ "class" → (name, v) ∈ descriptor.choices → (name, w) ∈ descriptor.choices → v = w

/-! ### Values that are chosen once -/

/-- Names and values that stand once make choices that stand once. -/
theorem Descriptor.nodup_choices (hdistinct : x.attributes.Distinct) (honce : x.attributes.Once) :
    x.choices.Nodup := by
  refine List.nodup_flatMap.2 ⟨fun entry hentry => ?_, ?_⟩
  · exact (honce entry hentry).map fun v w hvw => congrArg Prod.snd hvw
  · refine (List.pairwise_map.1 hdistinct).imp fun hne choice hchoice hother => hne ?_
    obtain ⟨v, -, rfl⟩ := List.mem_map.1 hchoice
    obtain ⟨w, -, heq⟩ := List.mem_map.1 hother
    exact (congrArg Prod.fst heq).symm

/-! ### What the compounds are written as -/

/-- The conditions on an attribute ask for its values. -/
theorem conditions_attributePieces (hlower : Text.lower name = name) {values : List String}
    (hnul : ∀ v ∈ values, '\x00' ∉ v.toList) (hone : name ≠ "class" → ∃ v, values = [v]) :
    (attributePieces name values).flatMap Prod.snd = values.map fun v => conditionFor (name, v) := by
  unfold attributePieces
  split
  · next hclass =>
    rw [List.flatMap_map, List.map_eq_flatMap]
    refine List.flatMap_congr fun v hv => ?_
    rw [conditionFor, if_pos hclass, classPiece, restored_of_not_mem (hnul v hv)]
  · next hclass =>
    obtain ⟨v, rfl⟩ := hone hclass
    have hv := restored_of_not_mem (hnul v List.mem_cons_self)
    rw [List.map_singleton, conditionFor, if_neg hclass]
    dsimp only
    split
    · rw [List.flatMap_singleton, idPiece, hv]
    · rw [List.flatMap_singleton, attributePiece, hv, hlower]

/-- The condition on the place. -/
theorem conditions_placePieces {n : NodeId} (hplace : d.positionalIndex n + 1 ≤ 0x7FFFFFFF) :
    (placePieces d n).flatMap Prod.snd = if 0 < d.positionalIndex n
      then [.nth ⟨0, (d.positionalIndex n + 1 : Nat), true, false⟩] else [] := by
  unfold placePieces
  cases hk : d.positionalIndex n with
  | zero => rfl
  | succ k =>
    rw [hk] at hplace
    rw [if_pos (Nat.succ_pos k), List.flatMap_singleton, Css.placePiece, Nat.min_eq_right hplace]

/-- The compound that a descriptor is written as asks for what it says. -/
theorem askedBy_toCompound (hselectable : x.Selectable d) (hoffered : x.Offered d) (hescapable : x.Escapable d)
    (hvalues : ∀ entry ∈ x.attributes, entry.2 ≠ []) (hdistinct : x.attributes.Distinct) (honce : x.attributes.Once) :
    x.AskedBy d (x.toCompound d).conditions := by
  obtain ⟨tag, htag, -⟩ := hselectable.tag
  have hone : ∀ entry ∈ x.attributes, entry.1 ≠ "class" → ∃ v, entry.2 = [v] := fun entry hentry hclass =>
    hoffered.exists_eq_singleton hentry (hselectable.lower entry hentry) hclass (hvalues entry hentry)
      (honce entry hentry)
  refine ⟨⟨tag, htag, ?_⟩, fun name value => ?_, Descriptor.nodup_choices hdistinct honce, ?_⟩
  · have hasked : (x.attributes.flatMap fun entry => (attributePieces entry.1 entry.2).flatMap Prod.snd) =
        x.choices.map conditionFor := by
      rw [Descriptor.choices, List.map_flatMap]
      refine List.flatMap_congr fun entry hentry => ?_
      rw [List.map_map]
      exact conditions_attributePieces (hselectable.lower entry hentry) (hescapable.no_nul entry hentry)
        (hone entry hentry)
    rw [conditions_toCompound, conditions_placePieces hescapable.place, hasked, tagOf, Document.tagName?, htag,
      Option.map_some, Option.getD_some, String.ofList_toList]
  · rw [Descriptor.mem_choices, ← Descriptor.includes_iff hdistinct]
  · intro name v w hclass hv hw
    obtain ⟨vs, hvs, hv⟩ := Descriptor.mem_choices.1 hv
    obtain ⟨ws, hws, hw⟩ := Descriptor.mem_choices.1 hw
    rw [← hdistinct.lookup_eq_some_iff] at hvs hws
    obtain rfl := Option.some.inj (hvs.symm.trans hws)
    have hentry := hdistinct.lookup_eq_some_iff.1 hvs
    exact hoffered.eq_of_ne_class hentry (hselectable.lower (name, vs) hentry) hclass hv hw

/-! ### Runs -/

/-- The names and values can be escaped: no name is empty, and there is no U+0000. -/
def Descriptor.FreeOfNul (descriptor : Descriptor) : Prop :=
  ∀ choice ∈ descriptor.choices, choice.1 ≠ "" ∧ '\x00' ∉ choice.1.toList ∧ '\x00' ∉ choice.2.toList

instance (descriptor : Descriptor) : Decidable descriptor.FreeOfNul := inferInstanceAs (Decidable (∀ choice ∈ _, _))

/-- A grounded descriptor without NUL characters can be selected if its tag is plain. -/
theorem Descriptor.Grounded.selectable (h : x.Grounded d config ops) (hfree : x.FreeOfNul)
    (htag : ∃ tag, d.localName? x.node = some tag ∧ Text.IsPlain tag) : x.Selectable d := by
  have hname : ∀ entry ∈ x.attributes, entry.1 ≠ "" ∧ '\x00' ∉ entry.1.toList := by
    intro entry hentry
    obtain ⟨v, hv⟩ := List.exists_mem_of_ne_nil _ (h.values_ne_nil entry hentry)
    obtain ⟨hne, hnul, -⟩ := hfree (entry.1, v) (Descriptor.mem_choices.2 ⟨entry.2, hentry, hv⟩)
    exact ⟨hne, hnul⟩
  exact ⟨htag, fun entry hentry => (hname entry hentry).1, fun entry hentry => (hname entry hentry).2, h.lower⟩

/-- After any run, the selector of each scope with entries is read as one compound for each of its entries, in their
order, joined as descendants. -/
theorem parse_selector_run (hd : d.Built) (htags : d.PlainTags) (hfew : d.FewSiblings)
    (hfree : ∀ x ∈ ((Locator.start d config).run ops).descriptorsOf scope, x.FreeOfNul)
    (hne : ((Locator.start d config).run ops).handles scope ≠ []) :
    ∃ selector compounds, Css.parse ((((Locator.start d config).run ops).setGrammar .css).query scope) =
        .ok [selector] ∧ selector.Descendants compounds ∧
      List.Forall₂ (fun h conditions => ∃ x, ((Locator.start d config).run ops).registry.get? h = some x ∧
        x.AskedBy d conditions) (((Locator.start d config).run ops).handles scope) compounds := by
  have hlayout := layout_run hd.sound config ops
  have hgrounded := grounded_descriptorsOf d config ops scope
  have hdistinct := distinct_descriptorsOf d config ops scope
  have honce : ∀ x ∈ ((Locator.start d config).run ops).descriptorsOf scope, x.attributes.Once := fun x hx =>
    once_run d config ops x (mem_descriptors_of_mem hx)
  have helement : ∀ x ∈ ((Locator.start d config).run ops).descriptorsOf scope, d.isElement x.node = true :=
    fun x hx => (hlayout.mem_descriptorsOf hd.sound hx).1
  have hselectable : ∀ x ∈ ((Locator.start d config).run ops).descriptorsOf scope, x.Selectable d := by
    intro x hx
    obtain ⟨tag, htag⟩ := Option.isSome_iff_exists.1 (helement x hx)
    exact (hgrounded x hx).selectable (hfree x hx) ⟨tag, htag, htags x.node tag htag⟩
  have hasked : ∀ x ∈ ((Locator.start d config).run ops).descriptorsOf scope,
      x.AskedBy d (x.toCompound d).conditions := by
    intro x hx
    have hescapable : x.Escapable d := by
      refine ⟨fun entry hentry v hv => ?_, ?_⟩
      · exact (hfree x hx (entry.1, v) (Descriptor.mem_choices.2 ⟨entry.2, hentry, hv⟩)).2.2
      · exact Nat.le_of_lt_succ (hd.sound.positionalIndex_add_one_lt hfew (helement x hx))
    exact askedBy_toCompound (hselectable x hx) (hgrounded x hx).offered hescapable (hgrounded x hx).values_ne_nil
      (hdistinct x hx) (honce x hx)
  have hentries := hlayout.forall₂_descriptorsOf scope
  have hdescriptors := hlayout.descriptorsOf_ne_nil hne
  rw [query_run]
  generalize ((Locator.start d config).run ops) = l at *
  obtain ⟨first, others, hcons⟩ := List.exists_cons_of_ne_nil hdescriptors
  refine ⟨selectorOf d first others, (l.descriptorsOf scope).map fun x => (x.toCompound d).conditions, ?_, ?_, ?_⟩
  · rw [hcons] at hselectable hgrounded ⊢
    exact parse_selector hselectable (fun x hx => (hgrounded x hx).offered) _
  · have hjoined := Css.descendants_joinWith (first.toCompound d) (others.map (Descriptor.toCompound d))
    rw [← List.map_cons, List.map_map, ← hcons] at hjoined
    exact hjoined
  · rw [List.forall₂_map_right_iff]
    have hmem : ∀ h ∈ l.handles scope, ∀ x, l.registry.get? h = some x → x ∈ l.descriptorsOf scope :=
      fun h hh x hx => List.mem_filterMap.2 ⟨h, hh, hx⟩
    refine ((List.forall₂_and_left _ _).2 ⟨hmem, hentries⟩).imp fun h x hx => ?_
    exact ⟨x, hx.2, hasked x (hx.1 x hx.2)⟩

/-- A page with a link whose attributes need escapes in all their parts. -/
def linkPage : Document :=
  (Document.empty.addChild 0 (Document.elementContent "html" [])).addChild 1 (Document.elementContent "a"
    [("id", "1st"), ("class", "a:b -"), ("@click.prevent", "it's\n\\1")])

/-- The page with a link arises from edits. -/
theorem built_linkPage : linkPage.Built := by
  have hhtml := (Document.Built.empty.add_element "html" []).addChild (show 0 < Document.empty.size by decide)
  exact (hhtml.add_element "a" _).addChild (by decide)

/-- A pick of the link with all its attributes. -/
def linkOperations : List Operation :=
  [.pickMain 2, .toggle .main 0 "@click.prevent" "it's\n\\1" true, .toggle .main 0 "class" "-" true,
    .toggle .main 0 "id" "1st" true, .toggle .main 0 "class" "a:b" true]

/-- The selector of the run on the page with a link is parsed as one compound for each entry. -/
theorem parse_selector_run_linkPage :
    (((Locator.start linkPage { attributes := ["@click.prevent", "id", "class"] }).run linkOperations).setGrammar
        .css).query .main = "A[\\@click\\.prevent='it\\'s\\a \\\\1'].\\-.a\\:b#\\31 st" ∧
      ∃ selector compounds,
        Css.parse ((((Locator.start linkPage { attributes := ["@click.prevent", "id", "class"] }).run
          linkOperations).setGrammar .css).query .main) = .ok [selector] ∧ selector.Descendants compounds ∧
        List.Forall₂ (fun h conditions => ∃ x, ((Locator.start linkPage
          { attributes := ["@click.prevent", "id", "class"] }).run linkOperations).registry.get? h = some x ∧
            x.AskedBy linkPage conditions) [0] compounds :=
  ⟨by decide +kernel, parse_selector_run built_linkPage (by decide)
    (built_linkPage.sound.fewSiblings_of_size (by decide)) (by decide) (by decide)⟩

end Locator

end ElementLocator
