import ElementLocator.Proofs.Locator.Selected

/-!
# Queries that can be resolved

A query that a locator writes can be read again if the tags of the entries are plain, however often the tags repeat and
whatever values were chosen. Tags are written as they are, though, without any escapes: a tag with a colon gives a
query that its own reader refuses.
-/

namespace ElementLocator.Locator

variable {d : Document} {descriptors : List Descriptor} {config : Config} {ops : List Operation} {scope : Scope}

/-! ### What is selected -/

/-- All nodes that the query of a scope selects, in document order; a blank query selects none. -/
def selected (l : Locator) (scope : Scope) : Except Error (List NodeId) :=
  if Text.isBlank (l.query scope) then .ok []
  else selectFrom l.document (l.startOf scope) (l.query scope) l.grammar

/-- A scope finds the first of the nodes that its query selects. -/
theorem findScope_eq (l : Locator) (scope : Scope) : l.findScope scope = (l.selected scope).map List.head? := by
  unfold findScope selected
  by_cases hblank : Text.isBlank (l.query scope) = true
  · rw [if_pos hblank]
    unfold resolveFrom
    rw [if_pos hblank]
    rfl
  · rw [if_neg hblank]
    exact resolveFrom_eq (by simpa using hblank) l.grammar

/-- Whatever is written for legible entries can be read. -/
theorem exists_selectFrom (hne : descriptors ≠ []) (hlegible : Legible d descriptors) (anchor : NodeId)
    (grammar : Grammar) (anchoring : Anchoring) :
    ∃ found, selectFrom d anchor (String.ofList (renderChars d descriptors grammar anchoring)) grammar =
      .ok found := by
  cases grammar with
  | xpath => exact ⟨_, selectFrom_path hne hlegible anchor anchoring⟩
  | css =>
    obtain ⟨first, others, rfl⟩ := List.exists_cons_of_ne_nil hne
    exact ⟨_, selectFrom_selector hlegible anchor anchoring⟩

/-! ### Runs -/

/-- A scope without entries selects nothing. -/
theorem selected_run_of_nil (grammar : Grammar) (hnil : ((Locator.start d config).run ops).descriptorsOf scope = []) :
    (((Locator.start d config).run ops).setGrammar grammar).selected scope = .ok [] := by
  rw [selected, query_run, hnil]
  exact if_pos rfl

/-- A scope with legible entries selects what is written for them, from where its query starts to search. -/
theorem selected_run_of_ne_nil (grammar : Grammar)
    (hne : ((Locator.start d config).run ops).descriptorsOf scope ≠ [])
    (hlegible : Legible d (((Locator.start d config).run ops).descriptorsOf scope)) :
    (((Locator.start d config).run ops).setGrammar grammar).selected scope =
      selectFrom d (((Locator.start d config).run ops).startOf scope)
        (String.ofList (renderChars d (((Locator.start d config).run ops).descriptorsOf scope) grammar
          (((Locator.start d config).run ops).anchoring scope))) grammar := by
  have hdocument : (((Locator.start d config).run ops).setGrammar grammar).document = d :=
    (document_run d config ops).1
  have hstart : (((Locator.start d config).run ops).setGrammar grammar).startOf scope =
      ((Locator.start d config).run ops).startOf scope := by
    cases scope <;> rfl
  have hblank := isBlank_renderChars hne hlegible.writable grammar
    (((Locator.start d config).run ops).anchoring scope)
  rw [selected, query_run, hblank, hdocument, hstart]
  rfl

/-- After any run, the query of each scope whose entries have plain tags can be resolved, in both grammars. -/
theorem findScope_isOk_run (hd : d.Built) (hnames : ∀ name ∈ config.attributes, Text.IsPlain name)
    (htags : ∀ x ∈ ((Locator.start d config).run ops).descriptorsOf scope, ∀ tag, d.localName? x.node = some tag →
      Text.IsPlain tag) (grammar : Grammar) :
    ∃ found, (((Locator.start d config).run ops).setGrammar grammar).findScope scope = .ok found := by
  have hlegible := legible_run hd.sound htags (plainChoices_of_attributes hnames ops)
  obtain ⟨found, hfound⟩ :
      ∃ found, (((Locator.start d config).run ops).setGrammar grammar).selected scope = .ok found := by
    by_cases hnil : ((Locator.start d config).run ops).descriptorsOf scope = []
    · exact ⟨[], selected_run_of_nil grammar hnil⟩
    · rw [selected_run_of_ne_nil grammar hnil hlegible]
      exact exists_selectFrom hnil hlegible _ grammar _
  rw [findScope_eq, hfound]
  exact ⟨found.head?, rfl⟩

/-- On the page, the relative scope resolves after the run. -/
theorem findScope_isOk_run_page :
    ∃ found, (((Locator.start page {}).run pageOperations).setGrammar .css).findScope .relative = .ok found :=
  findScope_isOk_run built_page (by decide) (by decide) .css

/-- A page with an element whose tag has a prefix. -/
def prefixedPage : Document :=
  (Document.empty.addChild 0 (Document.elementContent "html" [])).addChild 1 (Document.elementContent "o:p" [])

/-- The page with a prefixed tag arises from edits. -/
theorem built_prefixedPage : prefixedPage.Built := by
  have hhtml := (Document.Built.empty.add_element "html" []).addChild (show 0 < Document.empty.size by decide)
  exact (hhtml.add_element "o:p" []).addChild (by decide)

/-- The element with the prefix can be picked, but neither of its queries can be resolved: the selector takes the colon
for the start of a pseudo-class, and the location path takes no prefixes. -/
theorem findScope_prefixedPage :
    prefixedPage.Built ∧ ((Locator.start prefixedPage {}).run [.pickMain 2]).leaf? .main = some 2 ∧
      (((Locator.start prefixedPage {}).run [.pickMain 2]).setGrammar .css).findScope .main =
        .error (.malformedQuery "O:P" (.css ⟨"O:P", .unsupportedPseudo "P"⟩)) ∧
      (((Locator.start prefixedPage {}).run [.pickMain 2]).setGrammar .xpath).findScope .main =
        .error (.malformedQuery "//O:P" (.xpath ⟨.loneColon, 3⟩)) :=
  ⟨built_prefixedPage, by decide +kernel⟩

end ElementLocator.Locator
