import ElementLocator.Proofs.Locator.Refinement
import ElementLocator.Proofs.XPath.Literal
import ElementLocator.Proofs.XPath.Writing

/-!
# Reading back written location paths

The location path that a locator writes for descriptors is read as one step for each of them: children with its tag,
at its place if it is not the first with that tag, with every chosen value contained in its attribute. Tags and
attribute names have to be plain for that; the values can be any texts.
-/

namespace ElementLocator.Locator

open XPath (Expr Spells Token Writes WritesStep bracketed)

/-- The descriptor can be written: its node is an element with a plain tag, and its attributes have plain names in
lower case. -/
structure Descriptor.Writable (d : Document) (descriptor : Descriptor) : Prop where
  tag : ∃ tag, d.localName? descriptor.node = some tag ∧ Text.IsPlain tag
  plain : ∀ entry ∈ descriptor.attributes, Text.IsPlain entry.1
  lower : ∀ entry ∈ descriptor.attributes, Text.lower entry.1 = entry.1

variable {d : Document} {descriptor : Descriptor} {rest : List Char} {toks : List Token}

/-- A plain tag is written as a plain name. -/
theorem isPlainChars_tagOf {n : NodeId} (h : ∃ tag, d.localName? n = some tag ∧ Text.IsPlain tag) :
    Text.isPlainChars (tagOf d n) = true := by
  obtain ⟨tag, htag, hplain⟩ := h
  rw [tagOf, Document.tagName?, htag]
  exact Text.isPlain_upper.2 hplain

/-- The tag of a descriptor that can be written has plain characters. -/
theorem Descriptor.Writable.isPlainChars_tagOf (h : descriptor.Writable d) :
    Text.isPlainChars (tagOf d descriptor.node) = true := Locator.isPlainChars_tagOf h.tag

/-- Tags are written in upper case. -/
theorem lower_tagOf (hd : d.Sound) {n : NodeId} {tag : String} (htag : d.localName? n = some tag) :
    Text.lower (String.ofList (tagOf d n)) = tag := by
  rw [tagOf, Document.tagName?, htag, Option.map_some, Option.getD_some, String.ofList_toList, Text.lower_upper]
  exact hd.lower_tag n tag htag

/-- A descriptor that can be written is of an element. -/
theorem Descriptor.Writable.isElement (h : descriptor.Writable d) : d.isElement descriptor.node = true := by
  obtain ⟨tag, htag, -⟩ := h.tag
  exact Document.isElement_of_localName htag

/-! ### Conditions -/

/-- The chosen values of a descriptor, each with the name of its attribute. -/
def Descriptor.choices (descriptor : Descriptor) : List (String × String) :=
  descriptor.attributes.flatMap fun entry => entry.2.map fun value => (entry.1, value)

/-- The choices are the values under each name. -/
theorem Descriptor.mem_choices {name value : String} :
    (name, value) ∈ descriptor.choices ↔ ∃ values, (name, values) ∈ descriptor.attributes ∧ value ∈ values := by
  simp [choices]

/-- The condition that an attribute contains a value. -/
def writeChoice (choice : String × String) : List Char :=
  "contains(@".toList ++ choice.1.toList ++ ", ".toList ++ XPath.literalFor choice.2.toList ++ [')']

/-- The tokens of the condition. -/
def choiceTokens (choice : String × String) : List Token :=
  .name "contains" :: .leftParen ::
    ([Token.comma].intercalate [[.at, .name choice.1], XPath.literalTokens choice.2.toList] ++ [.rightParen])

/-- The condition as an expression. -/
def choiceExpr (choice : String × String) : Expr :=
  .call .contains [.attribute (Text.lower choice.1), XPath.literalExpr choice.2.toList]

/-- The conditions of a step are those of its choices. -/
theorem flatMap_xpathConditions (descriptor : Descriptor) :
    (descriptor.attributes.flatMap fun (name, values) => xpathConditions name values) =
      descriptor.choices.map writeChoice := by
  rw [Descriptor.choices, List.map_flatMap]
  refine congrArg (fun f => List.flatMap f descriptor.attributes) (funext fun entry => ?_)
  obtain ⟨name, values⟩ := entry
  rw [List.map_map]
  rfl

/-- The choices of a descriptor that can be written have plain names. -/
theorem Descriptor.Writable.isPlain_choice (h : descriptor.Writable d) :
    ∀ choice ∈ descriptor.choices, Text.IsPlain choice.1 := by
  intro choice hchoice
  obtain ⟨entry, hentry, hvalue⟩ := List.mem_flatMap.1 hchoice
  obtain ⟨value, -, rfl⟩ := List.mem_map.1 hvalue
  exact h.plain entry hentry

/-- A written choice spells its tokens. -/
theorem spells_choice {choice : String × String} (hplain : Text.IsPlain choice.1) (h : Spells rest toks) :
    Spells (writeChoice choice ++ rest) (choiceTokens choice ++ toks) := by
  have hclosing : XPath.punctuation? ')' = some .rightParen := rfl
  have hcomma : XPath.punctuation? ',' = some .comma := rfl
  have hat : XPath.punctuation? '@' = some .at := rfl
  have hopening : XPath.punctuation? '(' = some .leftParen := rfl
  have hcontains : Text.isPlainChars "contains".toList = true := by decide
  have hliteral := XPath.spells_literalFor choice.2.toList (h.punctuation hclosing)
  have hvalue := Spells.punctuation hcomma hliteral.space
  have hname := Spells.name hplain (XPath.nameEnds_cons rfl) hvalue
  have hattribute := Spells.punctuation hopening (Spells.punctuation hat hname)
  have hall := Spells.name hcontains (XPath.nameEnds_cons rfl) hattribute
  rw [String.ofList_toList, String.ofList_toList] at hall
  have htext : writeChoice choice ++ rest = "contains".toList ++ '(' :: '@' ::
      (choice.1.toList ++ ',' :: ' ' :: (XPath.literalFor choice.2.toList ++ ')' :: rest)) := by
    have hstart : ("contains(@".toList : List Char) = "contains".toList ++ ['(', '@'] := by decide
    have hsep : (", ".toList : List Char) = [',', ' '] := rfl
    unfold writeChoice
    rw [hstart, hsep]
    simp only [List.append_assoc, List.cons_append, List.nil_append]
  have htokens : choiceTokens choice ++ toks = .name "contains" :: .leftParen :: .at :: .name choice.1 :: .comma ::
      (XPath.literalTokens choice.2.toList ++ .rightParen :: toks) := by
    simp only [choiceTokens, List.intercalate_cons_cons, List.intercalate_singleton, List.append_assoc,
      List.cons_append, List.nil_append]
  rw [htext, htokens]
  exact hall

/-- Conditions with `and` between them. -/
theorem spells_choices {first : String × String} {others : List (String × String)} (hfirst : Text.IsPlain first.1)
    (hothers : ∀ choice ∈ others, Text.IsPlain choice.1) (h : Spells rest toks) :
    Spells (" and ".toList.intercalate ((first :: others).map writeChoice) ++ rest)
      (choiceTokens first ++ (others.flatMap fun choice => .name "and" :: choiceTokens choice) ++ toks) := by
  induction others generalizing first with
  | nil =>
    rw [List.map_singleton, List.intercalate_singleton, List.flatMap_nil, List.append_nil]
    exact spells_choice hfirst h
  | cons second others ih =>
    have hmore := ih (hothers second List.mem_cons_self) fun choice hchoice =>
      hothers choice (List.mem_cons_of_mem second hchoice)
    have hand : Text.isPlainChars "and".toList = true := by decide
    have hkeyword := Spells.name hand (XPath.nameEnds_cons rfl) hmore.space
    have hall := spells_choice hfirst hkeyword.space
    have hsep : (" and ".toList : List Char) = ' ' :: ("and".toList ++ [' ']) := rfl
    rw [List.map_cons, List.map_cons, List.intercalate_cons_cons, ← List.map_cons]
    simpa only [hsep, List.flatMap_cons, List.append_assoc, List.cons_append, List.nil_append,
      String.ofList_toList] using hall

/-! ### Predicates and steps -/

/-- The place of a node as a predicate with its tokens; the first with its tag has none. -/
def placePredicates (d : Document) (n : NodeId) : List (List Token × Expr) :=
  match d.positionalIndex n with
  | 0 => []
  | k + 1 => [XPath.placePredicate (k + 2)]

/-- The conditions as one predicate with its tokens; without any there is none. -/
def choicePredicates : List (String × String) → List (List Token × Expr)
  | [] => []
  | first :: others =>
    [(choiceTokens first ++ others.flatMap fun choice => .name "and" :: choiceTokens choice,
      (others.map choiceExpr).foldl .and (choiceExpr first))]

/-- The predicates of a descriptor, each with its tokens. -/
def Descriptor.predicates (d : Document) (descriptor : Descriptor) : List (List Token × Expr) :=
  placePredicates d descriptor.node ++ choicePredicates descriptor.choices

/-- A descriptor as a location step. -/
def Descriptor.toStep (d : Document) (descriptor : Descriptor) : XPath.Step :=
  ⟨.child, .name (String.ofList (tagOf d descriptor.node)), (descriptor.predicates d).map Prod.snd⟩

/-- The tokens of the step. -/
def Descriptor.stepTokens (d : Document) (descriptor : Descriptor) : List Token :=
  .name (String.ofList (tagOf d descriptor.node)) :: bracketed (descriptor.predicates d)

/-- Behind a tag stands the place, if the node has one to be written. -/
theorem writes_placePredicates (d : Document) (n : NodeId) :
    Writes (position d n "[" "]") (bracketed (placePredicates d n)) := by
  unfold position placePredicates
  cases d.positionalIndex n with
  | zero => exact Writes.nil
  | succ k => exact XPath.writes_place (Nat.succ_ne_zero (k + 1))

/-- Behind that stand the conditions, if there are any. -/
theorem writes_choicePredicates {choices : List (String × String)} (hplain : ∀ choice ∈ choices, Text.IsPlain choice.1) :
    Writes (if (choices.map writeChoice).isEmpty then []
      else '[' :: " and ".toList.intercalate (choices.map writeChoice) ++ [']']) (bracketed (choicePredicates choices)) := by
  cases choices with
  | nil => exact Writes.nil
  | cons first others =>
    have htext : ∀ rest, (if ((first :: others).map writeChoice).isEmpty then []
        else '[' :: " and ".toList.intercalate ((first :: others).map writeChoice) ++ [']']) ++ rest =
        '[' :: (" and ".toList.intercalate ((first :: others).map writeChoice) ++ ']' :: rest) := fun rest => by simp
    refine ⟨fun rest later _ hlater => ?_, fun rest _ => ?_⟩
    · have hopening : XPath.punctuation? '[' = some .leftBracket := rfl
      have hclosing : XPath.punctuation? ']' = some .rightBracket := rfl
      have hspells := Spells.punctuation hopening (spells_choices (hplain first List.mem_cons_self)
        (fun choice hchoice => hplain choice (List.mem_cons_of_mem first hchoice)) (hlater.punctuation hclosing))
      rw [htext]
      simpa [bracketed, choicePredicates] using hspells
    · rw [htext]
      exact XPath.nameEnds_cons rfl

/-- A written step spells its tokens. -/
theorem writesStep_xpathStep (hdescriptor : descriptor.Writable d) :
    WritesStep (xpathStep d descriptor) (descriptor.stepTokens d) := by
  have hall := ((writes_placePredicates d descriptor.node).append (writes_choicePredicates hdescriptor.isPlain_choice)).step
    hdescriptor.isPlainChars_tagOf
  rw [xpathStep, flatMap_xpathConditions, Descriptor.stepTokens, Descriptor.predicates, bracketed,
    List.flatMap_append, ← bracketed, ← bracketed, List.append_assoc]
  exact hall

/-! ### Paths -/

variable {descriptors : List Descriptor}

/-- The condition is read at any depth that its length allows. -/
theorem reads_choice {stop depth : Nat} (choice : String × String) :
    XPath.Grammar.Reads (XPath.Grammar.primary stop (XPath.Grammar.expression stop (depth + 2))) (choiceTokens choice)
      (choiceExpr choice) XPath.Grammar.Anything := by
  refine @XPath.Grammar.reads_call stop (XPath.Grammar.expression stop (depth + 2)) "contains" .contains
    [([.at, .name choice.1], .attribute (Text.lower choice.1)),
      (XPath.literalTokens choice.2.toList, XPath.literalExpr choice.2.toList)]
    (by decide) ⟨Nat.le_refl 2, by rintro most ⟨⟩; exact Nat.le_refl 2⟩ ?_ ?_
  · intro a ha
    rcases List.mem_cons.1 ha with rfl | ha
    · exact (XPath.Grammar.reads_attribute choice.1).expression
    · rw [List.mem_singleton.1 ha]
      exact XPath.reads_literalFor choice.2.toList
  · intro a ha
    rcases List.mem_cons.1 ha with rfl | ha
    · exact ⟨_, _, rfl, by simp⟩
    · rw [List.mem_singleton.1 ha]
      unfold XPath.literalTokens
      split
      · exact ⟨_, _, rfl, by simp⟩
      · exact ⟨_, _, rfl, by simp⟩

/-- Each predicate is read at any depth that its length allows. The tokens around a value make room for the depth that
the value needs. -/
theorem reads_predicate {stop : Nat} :
    ∀ i ∈ descriptor.predicates d, ∀ depth, i.1.length ≤ depth →
      XPath.Grammar.Reads (XPath.Grammar.expression stop depth) i.1 i.2 XPath.Grammar.Closes := by
  intro i hi depth hdepth
  rcases List.mem_append.1 hi with hi | hi
  · unfold placePredicates at hi
    split at hi
    · cases hi
    · rw [List.mem_singleton.1 hi] at hdepth ⊢
      exact XPath.reads_placePredicate _ hdepth
  · cases hchoices : descriptor.choices with
    | nil =>
      rw [hchoices] at hi
      cases hi
    | cons first others =>
      rw [hchoices, choicePredicates, List.mem_singleton] at hi
      subst hi
      obtain ⟨depth, rfl⟩ : ∃ k, depth = k + 3 := by
        refine Nat.exists_eq_add_of_le' (Nat.le_trans ?_ hdepth)
        simp [choiceTokens]
      have hothers : ∀ i ∈ others.map fun choice => (choiceTokens choice, choiceExpr choice),
          XPath.Grammar.Reads (XPath.Grammar.primary stop (XPath.Grammar.expression stop (depth + 2))) i.1 i.2
            XPath.Grammar.Anything := by
        intro i hi
        obtain ⟨choice, -, rfl⟩ := List.mem_map.1 hi
        exact reads_choice choice
      have hall := XPath.Grammar.reads_primaries (choiceTokens first, choiceExpr first) _ (reads_choice first)
        hothers
      rwa [List.map_map, List.flatMap_map] at hall

/-- The location path that descriptors are written as. -/
def pathOf (d : Document) (descriptors : List Descriptor) : Anchoring → XPath.LocationPath
  | .absolute => ⟨true, .anywhere :: descriptors.map (Descriptor.toStep d)⟩
  | .relative => ⟨false, .here :: .anywhere :: descriptors.map (Descriptor.toStep d)⟩

/-- The written location path is read as the one that was meant. -/
theorem parse_path (hne : descriptors ≠ []) (hdescriptors : ∀ x ∈ descriptors, x.Writable d)
    (anchoring : Anchoring) :
    XPath.parse (String.ofList (renderChars d descriptors .xpath anchoring)) =
      .ok (pathOf d descriptors anchoring) := by
  have hwrites : ∀ x ∈ descriptors, WritesStep (xpathStep d x) (x.stepTokens d) := fun x hx =>
    writesStep_xpathStep (hdescriptors x hx)
  have hreads : ∀ stop, ∀ x ∈ descriptors,
      XPath.Grammar.ReadsStep stop (x.stepTokens d) (x.toStep d) :=
    fun stop x _ => XPath.Grammar.reads_step .none (.name _) reads_predicate
  have hnonempty : descriptors.isEmpty = false := by simpa using hne
  unfold renderChars
  rw [hnonempty]
  cases anchoring with
  | absolute => exact XPath.parse_absolute hne hwrites hreads
  | relative => exact XPath.parse_relative hne hwrites hreads

end ElementLocator.Locator
