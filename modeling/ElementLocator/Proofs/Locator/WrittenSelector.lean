import ElementLocator.Proofs.Css.Writing
import ElementLocator.Proofs.Locator.WrittenPath

/-!
# Reading back written selectors

The selector that a locator writes for descriptors is read as one compound for each of them, joined as descendants:
the tag, the place among the siblings with that tag unless it is the first, a class for each chosen word, and the
whole value of every other chosen attribute. The values can be any texts; U+0000, which has no escape, is read as
U+FFFD. A place beyond the integers of 32 bits is read as the greatest of them.
-/

namespace ElementLocator.Locator

open Css (ComponentValue Piece ReadsConditions Writes WritesCompound identEnds_cons placePiece writes_place)

/-- What a value is read as that was written into a selector. -/
def restored (value : String) : String := String.ofList (Css.readBack value.toList)

/-- A value without a NUL character is restored as it is. -/
theorem restored_of_not_mem {value : String} (h : '\x00' ∉ value.toList) : restored value = value := by
  rw [restored, Css.readBack_of_not_mem h, String.ofList_toList]

variable {d : Document} {descriptor : Descriptor} {name value : String}

/-- The descriptor can be written as a compound: its node is an element with a plain tag, and its attributes have
names in lower case that can be escaped. -/
structure Descriptor.Selectable (d : Document) (descriptor : Descriptor) : Prop where
  tag : ∃ tag, d.localName? descriptor.node = some tag ∧ Text.IsPlain tag
  name_ne : ∀ entry ∈ descriptor.attributes, entry.1 ≠ ""
  no_nul : ∀ entry ∈ descriptor.attributes, '\x00' ∉ entry.1.toList
  lower : ∀ entry ∈ descriptor.attributes, Text.lower entry.1 = entry.1

/-- Plain names need no escapes. -/
theorem Descriptor.Writable.selectable (h : descriptor.Writable d) : descriptor.Selectable d where
  tag := h.tag
  name_ne := by
    intro entry hentry hempty
    have hplain := h.plain entry hentry
    rw [hempty] at hplain
    revert hplain
    decide
  no_nul := by
    intro entry hentry hnul
    have hplain := Text.isPlainChar_of_mem (h.plain entry hentry) hnul
    revert hplain
    decide
  lower := h.lower

/-! ### Conditions -/

/-- The name is one of the classes. -/
def classPiece (value : String) : Piece :=
  ([.single (.delim '.'), .single (.ident (restored value))], [.class (restored value)])

/-- The identifier is the name. -/
def idPiece (value : String) : Piece := ([.single (.idHash (restored value))], [.id (restored value)])

/-- The attribute has the value. -/
def attributePiece (name value : String) : Piece :=
  ([.block .openSquare [.single (.ident name), .single (.delim '='), .single (.quotedString (restored value))]],
    [.attribute false name (.value .equals (restored value) (Css.caselessAttributes.contains (Text.lower name)))])

/-- A value that is not empty has a character. -/
theorem ne_nil_of_ne_empty (h : value ≠ "") : value.toList ≠ [] := fun hnil => h (String.toList_eq_nil_iff.1 hnil)

/-- A class condition is written as its piece. -/
theorem writes_class (hne : value ≠ "") :
    Writes ('.' :: Css.writeIdentifier value.toList) (classPiece value).1 := by
  refine ⟨fun rest hrest => ?_, fun rest _ => identEnds_cons (by decide) (by decide)⟩
  rw [List.cons_append, Css.tokens_class (ne_nil_of_ne_empty hne) hrest, ComponentValue.ofTokens_single rfl,
    ComponentValue.ofTokens_single rfl]
  rfl

/-- A condition on the identifier is written as its piece. -/
theorem writes_id (hne : value ≠ "") : Writes ('#' :: Css.writeIdentifier value.toList) (idPiece value).1 := by
  refine ⟨fun rest hrest => ?_, fun rest _ => identEnds_cons (by decide) (by decide)⟩
  rw [List.cons_append, Css.tokens_id (ne_nil_of_ne_empty hne) hrest, ComponentValue.ofTokens_single rfl]
  rfl

/-- A condition on another attribute is written as its piece. -/
theorem writes_attribute (hname : name ≠ "") (hnul : '\x00' ∉ name.toList) (value : String) :
    Writes ('[' :: Css.writeIdentifier name.toList ++ '=' :: Css.writeString value.toList ++ [']'])
      (attributePiece name value).1 := by
  refine ⟨fun rest hrest => ?_, fun rest _ => identEnds_cons (by decide) (by decide)⟩
  have hne := ne_nil_of_ne_empty hname
  have hopening : Css.punctuation? '[' = some .openSquare := rfl
  have hclosing : Css.punctuation? ']' = some .closeSquare := rfl
  have htokens : Css.tokens ('[' :: Css.writeIdentifier name.toList ++ '=' :: Css.writeString value.toList ++ [']'] ++
      rest) =
      .openSquare :: ([.ident name, .delim '=', .quotedString (restored value)] ++ .closeSquare :: Css.tokens rest) := by
    simp only [List.cons_append, List.append_assoc, List.nil_append]
    rw [Css.tokens_punctuation hopening,
      Css.tokens_writeIdentifier hne (identEnds_cons (by decide) (by decide)), Css.readBack_of_not_mem hnul,
      Css.tokens_equals, Css.tokens_writeString, Css.tokens_punctuation hclosing, String.ofList_toList]
    rfl
  rw [htokens, ComponentValue.ofTokens_block rfl (by simp [Css.Token.closing?])]
  rfl

/-! ### Compounds -/

/-- The conditions on one attribute. -/
def attributePieces (name : String) (values : List String) : List Piece :=
  if name = "class" then values.map classPiece
  else match values with
    | [] => []
    | value :: _ => if name = "id" then [idPiece value] else [attributePiece name value]

/-- The condition on the place; the first with its tag has none. -/
def placePieces (d : Document) (n : NodeId) : List Piece :=
  match d.positionalIndex n with
  | 0 => []
  | k + 1 => [placePiece (k + 2)]

/-- A descriptor as a compound. -/
def Descriptor.toCompound (d : Document) (descriptor : Descriptor) : Css.Compound :=
  ⟨String.ofList (tagOf d descriptor.node),
    placePieces d descriptor.node ++ descriptor.attributes.flatMap fun entry => attributePieces entry.1 entry.2⟩

/-- The conditions of one attribute are written as their pieces. -/
theorem writes_cssCondition {values : List String} (hname : name ≠ "") (hnul : '\x00' ∉ name.toList)
    (hne : ∀ v ∈ values, v ≠ "") :
    Writes (cssCondition name values) ((attributePieces name values).flatMap Prod.fst) := by
  unfold cssCondition attributePieces
  split
  · have hclasses := @Writes.flatMap _ values (fun v => '.' :: Css.writeIdentifier v.toList) (fun v => [classPiece v])
      fun v hv => by simpa using writes_class (hne v hv)
    rwa [← List.map_eq_flatMap] at hclasses
  · split
    · exact Writes.nil
    · next value more =>
      split
      · simpa using writes_id (hne value List.mem_cons_self)
      · simpa using writes_attribute hname hnul value

/-- The condition on the place is written as its pieces. -/
theorem writes_placePieces (d : Document) (n : NodeId) :
    Writes (position d n ":nth-of-type(" ")") ((placePieces d n).flatMap Prod.fst) := by
  unfold position placePieces
  cases d.positionalIndex n with
  | zero => exact Writes.nil
  | succ k =>
    rw [List.flatMap_singleton]
    exact writes_place (k + 2)

/-- The text of a descriptor writes its compound. -/
theorem writesCompound_cssStep (hselectable : descriptor.Selectable d) (hoffered : descriptor.Offered d) :
    WritesCompound (cssStep d descriptor) (descriptor.toCompound d) := by
  have hstep : cssStep d descriptor = tagOf d descriptor.node ++ (position d descriptor.node ":nth-of-type(" ")" ++
      descriptor.attributes.flatMap fun entry => cssCondition entry.1 entry.2) := List.append_assoc _ _ _
  have hconditions : Writes (descriptor.attributes.flatMap fun entry => cssCondition entry.1 entry.2)
      ((descriptor.attributes.flatMap fun entry => attributePieces entry.1 entry.2).flatMap Prod.fst) :=
    Writes.flatMap fun entry hentry => writes_cssCondition (hselectable.name_ne entry hentry)
      (hselectable.no_nul entry hentry) fun v hv =>
        (mem_candidateValues (hselectable.lower entry hentry) (hoffered entry hentry v hv)).1
  have hall := (writes_placePieces d descriptor.node).append hconditions
  rw [← List.flatMap_append] at hall
  rw [hstep]
  exact hall.compound (isPlainChars_tagOf hselectable.tag)

/-- The attribute pieces are read as their conditions. -/
theorem readsConditions_attributePieces (values : List String) :
    ∀ p ∈ attributePieces name values, ReadsConditions p.1 p.2 := by
  intro p hp
  unfold attributePieces at hp
  split at hp
  · obtain ⟨value, -, rfl⟩ := List.mem_map.1 hp
    exact Css.readsConditions_class _
  · split at hp
    · cases hp
    · split at hp
      · rw [List.mem_singleton.1 hp]
        exact Css.readsConditions_id _
      · rw [List.mem_singleton.1 hp]
        exact Css.readsConditions_attribute _ _

/-- The compound of a descriptor is read as it is meant. -/
theorem Descriptor.readable_toCompound (d : Document) (descriptor : Descriptor) :
    (descriptor.toCompound d).Readable := by
  intro p hp
  rcases List.mem_append.1 hp with hp | hp
  · unfold placePieces at hp
    split at hp
    · cases hp
    · rw [List.mem_singleton.1 hp]
      exact Css.readsConditions_place _
  · obtain ⟨entry, -, hp⟩ := List.mem_flatMap.1 hp
    exact readsConditions_attributePieces entry.2 p hp

/-! ### Selectors -/

variable {first : Descriptor} {others : List Descriptor}

/-- The selector that descriptors are written as. -/
def selectorOf (d : Document) (first : Descriptor) (others : List Descriptor) : Css.Complex :=
  Css.joinWith .descendant (first.toCompound d) (others.map (Descriptor.toCompound d))

/-- The written selector is read as the one that was meant. -/
theorem parse_selector (hselectable : ∀ x ∈ first :: others, x.Selectable d)
    (hoffered : ∀ x ∈ first :: others, x.Offered d) (anchoring : Anchoring) :
    Css.parse (String.ofList (renderChars d (first :: others) .css anchoring)) = .ok [selectorOf d first others] := by
  have hwrites : ∀ x ∈ first :: others, WritesCompound (cssStep d x) (x.toCompound d) := fun x hx =>
    writesCompound_cssStep (hselectable x hx) (hoffered x hx)
  have htext : renderChars d (first :: others) .css anchoring =
      [' '].intercalate ((first :: others).map (cssStep d)) := by
    cases anchoring <;> rfl
  rw [htext]
  exact Css.parse_intercalate Css.separates_blank Css.joins_descendant hwrites fun x _ => x.readable_toCompound d

end ElementLocator.Locator
