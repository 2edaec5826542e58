import ElementLocator.Proofs.Document.Order
import ElementLocator.Proofs.Locator.PathMeaning
import ElementLocator.Proofs.XPath.Joining

/-!
# Queries that quote a text

A text that is written as a literal comes back as it is, wherever the literal stands, since nothing in the text can end
the literal. A query that asks for an attribute with a quoted value therefore finds the elements with exactly that
value, and one that asks for a part finds those whose value has the text as a part. Both reach elements from parent to
child, so that an element below a text or a comment is not found.
-/

namespace ElementLocator

/-- The parent of the node is the document node or an element. -/
def Document.Nested (d : Document) (n : NodeId) : Prop :=
  ∃ p, d.parent? n = some p ∧ (p = Document.root ∨ d.isElement p = true)

/-- Where only elements nest, all attached elements are nested. -/
theorem Document.Sound.nested {d : Document} (h : d.Sound) (hnest : d.ElementsNest) {n : NodeId}
    (hn : d.isElement n = true) (hattached : d.isAttached n = true) : d.Nested n := by
  obtain ⟨p, hp, -⟩ := h.exists_parent hn (Document.Sound.isAttached_iff.1 hattached)
  exact ⟨p, hp, hnest p n hp⟩

namespace XPath

open Locator (writeChoice choiceTokens choiceExpr)

variable {d : Document} {n : NodeId} {name query : String} {predicate : List Char} {ts : List Token} {e : Expr}

/-! ### Reading -/

/-- What is read as a primary expression is one. -/
theorem Derives.Primary.of_reads {stop depth : Nat}
    (h : Grammar.Reads (Grammar.primary stop (Grammar.expression stop depth)) ts e Grammar.Anything) :
    Derives.Primary ts e := by
  have hplaced : (ts.map (Placed.mk · 0)).map Placed.token = ts := by simp [List.map_map, Function.comp_def]
  have hread := h _ [] hplaced trivial
  obtain ⟨used, hused, hprimary⟩ := Grammar.primary_sound (Grammar.expression_sound depth) _ _ _ hread
  rw [List.append_nil, List.append_nil] at hused
  rwa [← hused, hplaced] at hprimary

/-- All elements that are children of an element or of the document node and for which the expression holds. -/
def anyElement (e : Expr) : LocationPath := ⟨true, [.anywhere, ⟨.child, .wildcard, [e]⟩]⟩

/-- A predicate behind `//*` is read as a location path. -/
theorem parse_anyElement (hquery : query.toList = '/' :: '/' :: '*' :: '[' :: predicate)
    (hspells : Spells predicate (ts ++ [.rightBracket])) (he : Derives.Disjunction ts e) :
    parse query = .ok (anyElement e) := by
  have hstar : punctuation? '*' = some .star := rfl
  have hbracket : punctuation? '[' = some .leftBracket := rfl
  have hstep := Derives.Step.full [(ts, e)] .none .star (by simpa using he)
  simp only [List.flatMap_cons, List.flatMap_nil, List.append_nil, List.nil_append] at hstep
  apply parse_iff_spells.2
  refine ⟨_, ?_, .absolute .double (.step hstep)⟩
  rw [hquery]
  exact ((hspells.punctuation hbracket).punctuation hstar).doubleSlash

/-! ### Selecting -/

/-- With an expression that depends on the node alone, exactly the nested elements are found for which it holds. -/
theorem select_anyElement (hd : d.Sound) {P : NodeId → Prop} (hparse : parse query = .ok (anyElement e))
    (hholds : ∀ focus : Focus, e.holds d focus = true ↔ P focus.node) :
    ∃ found, select d Document.root query = .ok found ∧ d.Lists found fun n => d.Nested n ∧ P n := by
  have hfrom : ∀ m n, n ∈ (⟨.child, .wildcard, [e]⟩ : Step).from d m ↔
      (d.parent? n = some m ∧ d.isElement n = true) ∧ P n := by
    intro m n
    have hkept : (⟨.child, .wildcard, [e]⟩ : Step).from d m =
        keep d ((d.elementChildren m).filter fun k => NodeTest.wildcard.passes d k) e := rfl
    rw [hkept, mem_keep_of_node hholds, List.mem_filter, hd.mem_elementChildren_iff, NodeTest.passes]
    refine and_congr_left fun _ => ⟨And.left, fun h => ⟨h, h.2⟩⟩
  have hselected : ∀ n, d.isElement n = true ∧ d.isAttached n = true →
      (n ∈ (anyElement e).select d Document.root ↔ d.Nested n ∧ P n) := by
    rintro n ⟨hn, hattached⟩
    rw [mem_select]
    simp only [anyElement, if_true, Reached, exists_eq_right', hfrom]
    constructor
    · rintro ⟨m, hm, ⟨hparent, -⟩, hp⟩
      refine ⟨⟨m, hparent, ?_⟩, hp⟩
      exact ((Locator.mem_from_anywhere hd (.inl rfl)).1 hm).imp_right fun hm =>
        (hd.mem_descendantElements_iff.1 hm).2
    · rintro ⟨⟨m, hparent, hm⟩, hp⟩
      refine ⟨m, (Locator.mem_from_anywhere hd (.inl rfl)).2 (hm.imp_right fun helement => ?_), ⟨hparent, hn⟩, hp⟩
      exact hd.mem_elements_of_lineage helement
        (hd.root_mem_lineage_parent hn (Document.Sound.isAttached_iff.1 hattached) hparent)
  refine ⟨_, by rw [select, hparse]; rfl, ?_⟩
  rw [select_elements hd (by simp [anyElement, Step.anywhere]) (by simp [anyElement])
    (Forest.WellFormed.self_mem_lineage d.nodes _)]
  have hlists := hd.lists_filter fun n => decide (n ∈ (anyElement e).select d Document.root)
  refine ⟨hlists.ordered, hlists.once, fun n => (hlists.mem n).trans ?_⟩
  rw [decide_eq_true_eq, ← and_assoc, ← and_assoc]
  exact and_congr_right (hselected n)

/-! ### Quoted values -/

/-- The attribute is compared with a text. -/
def equalsExpr (name value : String) : Expr :=
  .compare false (.attribute (Text.lower name)) (literalExpr value.toList)

/-- An attribute equals a text if it is there with that value. -/
theorem compare_attribute_text (actual : Option String) (wanted : String) :
    Value.compare false (.attribute actual) (.text wanted) = true ↔ actual = some wanted := by
  cases actual with
  | none => simp [Value.compare, Value.isMissing]
  | some actual => simp [Value.compare, Value.isMissing, Value.equals, Value.toText]

/-- The equality holds at nodes whose attribute has the value. -/
theorem holds_equalsExpr (name value : String) (focus : Focus) :
    (equalsExpr name value).holds d focus = true ↔
      d.attribute? focus.node (Text.lower name) = some value := by
  rw [Expr.holds, equalsExpr, Expr.eval, Expr.eval, eval_literalExpr, String.ofList_toList]
  exact compare_attribute_text _ value

/-- The choice holds at nodes whose attribute has the value as a part. -/
theorem holds_choiceExpr (choice : String × String) (focus : Focus) :
    (choiceExpr choice).holds d focus = true ↔ Locator.HasPart d choice focus.node := by
  rw [Expr.holds, Locator.eval_choiceExpr]
  exact Text.occursIn_iff

/-- A quoted value is written as the literal for it. -/
theorem toList_quote (value : String) : (quote value).toList = literalFor value.toList := String.toList_ofList

/-- A query for the elements whose attribute has a quoted value is read as it is meant. -/
theorem parse_equals (hplain : Text.IsPlain name) (value : String) :
    parse ("//*[@" ++ name ++ " = " ++ quote value ++ "]") = .ok (anyElement (equalsExpr name value)) := by
  have hat : punctuation? '@' = some .at := rfl
  have hequals : punctuation? '=' = some .equals := rfl
  have hclosing : punctuation? ']' = some .rightBracket := rfl
  have hliteral := spells_literalFor value.toList (Spells.nil.punctuation hclosing)
  have hsign := Spells.punctuation hequals hliteral.space
  have hname := Spells.punctuation hat (Spells.name hplain (nameEnds_cons rfl) hsign.space)
  rw [String.ofList_toList] at hname
  have hcompare : Derives.Comparison (.at :: .name name :: .equals :: literalTokens value.toList)
      (equalsExpr name value) :=
    .compare (.attribute name) .equal (.of_reads (@reads_primary_literalFor 0 0 value.toList))
  refine parse_anyElement ?_ hname hcompare.disjunction
  simp [toList_quote]

/-- The same for a quoted part. -/
theorem parse_contains (hplain : Text.IsPlain name) (value : String) :
    parse ("//*[contains(@" ++ name ++ ", " ++ quote value ++ ")]") = .ok (anyElement (choiceExpr (name, value))) := by
  have hclosing : punctuation? ']' = some .rightBracket := rfl
  have hspells := Locator.spells_choice (show Text.IsPlain (name, value).1 from hplain)
    (Spells.nil.punctuation hclosing)
  have hprimary : Derives.Primary (choiceTokens (name, value)) (choiceExpr (name, value)) :=
    .of_reads (@Locator.reads_choice 0 0 (name, value))
  have hquery : ∀ text cs, text.toList = cs → ("//*[contains(@" ++ name ++ ", " ++ text ++ ")]").toList =
      '/' :: '/' :: '*' :: '[' :: ("contains(@".toList ++ name.toList ++ ", ".toList ++ cs ++ [')'] ++ [']']) := by
    rintro text _ rfl
    simp
  exact parse_anyElement (hquery _ _ (toList_quote value)) hspells (Derives.Comparison.primary hprimary).disjunction

/-- The written form of any text consists of tokens that are read as one primary expression, whose value is the text at
every focus. The queries for an attribute that has the text as its value, and for one that has it as a part, find
exactly the nested elements for which that is so; where only elements nest, these are all such elements. -/
theorem quoted_text_is_exact (hd : d.Built) (hplain : Text.IsPlain name) (value : String) :
    (∃ placed e, tokens 0 (quote value).toList = .ok placed ∧
      (∀ stop depth, Grammar.primary stop (Grammar.expression stop (depth + 1)) placed = .ok (e, [])) ∧
      ∀ (d : Document) focus, e.eval d focus = .text value) ∧
    (∃ found, select d Document.root ("//*[@" ++ name ++ " = " ++ quote value ++ "]") = .ok found ∧
      d.Lists found fun n => d.Nested n ∧ d.attribute? n (Text.lower name) = some value) ∧
    (∃ found, select d Document.root ("//*[contains(@" ++ name ++ ", " ++ quote value ++ ")]") = .ok found ∧
      d.Lists found fun n => d.Nested n ∧
        value.toList <:+: ((d.attribute? n (Text.lower name)).getD "").toList) ∧
    (d.ElementsNest → ∀ n, d.isElement n = true → d.isAttached n = true → d.Nested n) := by
  refine ⟨?_, ?_, ?_, fun hnest n hn hattached => hd.sound.nested hnest hn hattached⟩
  · obtain ⟨placed, hplaced, hmap⟩ := spells_literalFor value.toList Spells.nil 0
    rw [List.append_nil] at hplaced hmap
    refine ⟨placed, literalExpr value.toList, ?_, fun stop depth => ?_, fun d focus => ?_⟩
    · rw [toList_quote, hplaced]
    · have hread := @reads_primary_literalFor stop depth value.toList placed [] hmap trivial
      rwa [List.append_nil] at hread
    · rw [eval_literalExpr, String.ofList_toList]
  · exact select_anyElement hd.sound (parse_equals hplain value) (holds_equalsExpr name value)
  · exact select_anyElement hd.sound (parse_contains hplain value) (holds_choiceExpr (name, value))

/-- A document element with both kinds of quotation marks in its title, and a paragraph below a text in it. -/
def annotated : Document :=
  Document.empty.edits
    [.element "main", .append 0 1, .setAttribute 1 "title" "it's \"so\"", .text "note", .append 1 2, .element "p",
      .setAttribute 3 "id" "x", .append 2 3]

/-- The annotated document arises from edits. -/
theorem built_annotated : annotated.Built := Document.built_edits (by decide)

/-- The text with both kinds of quotation marks is quoted, and the query finds the document element. -/
theorem quoted_text_is_exact_annotated :
    annotated.Built ∧ Text.IsPlain "title" ∧ ∃ found,
      select annotated Document.root ("//*[@" ++ "title" ++ " = " ++ quote "it's \"so\"" ++ "]") = .ok found ∧
        (annotated.Lists found fun n =>
          annotated.Nested n ∧ annotated.attribute? n (Text.lower "title") = some "it's \"so\"") ∧ found = [1] := by
  have hplain : Text.IsPlain "title" := by decide
  obtain ⟨-, ⟨found, hselect, hlists⟩, -⟩ := quoted_text_is_exact built_annotated hplain "it's \"so\""
  have hfound :
      select annotated Document.root ("//*[@" ++ "title" ++ " = " ++ quote "it's \"so\"" ++ "]") = .ok [1] := by
    cbv
  exact ⟨built_annotated, hplain, found, hselect, hlists, Except.ok.inj (hselect.symm.trans hfound)⟩

/-- The paragraph below the text is an attached element with the quoted value, and no query finds it. -/
theorem select_annotated :
    annotated.Built ∧ Text.IsPlain "id" ∧ annotated.isElement 3 = true ∧ annotated.isAttached 3 = true ∧
      annotated.attribute? 3 "id" = some "x" ∧
      select annotated Document.root ("//*[@" ++ "id" ++ " = " ++ quote "x" ++ "]") = .ok [] ∧
      select annotated Document.root ("//*[contains(@" ++ "id" ++ ", " ++ quote "x" ++ ")]") = .ok [] :=
  ⟨built_annotated, by decide, by decide, by decide, by decide, by cbv, by cbv⟩

end XPath

end ElementLocator
