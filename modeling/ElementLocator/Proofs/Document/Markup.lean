import ElementLocator.Document.Html
import ElementLocator.Proofs.Document.Built
import ElementLocator.Proofs.Forest.Order

/-!
# Documents from markup are built

A new node that becomes the last child of an earlier one was made detached and then appended, and its attributes were
set one after the other. So the document that any markup writes is one that the building operations make.
-/

namespace ElementLocator.Document

variable {d : Document} {parent : NodeId} {content : Content}

@[simp] theorem size_add (d : Document) (content : Content) : (d.add content).size = d.size + 1 :=
  Forest.size_push d.nodes content

@[simp] theorem size_addChild (d : Document) (parent : NodeId) (content : Content) :
    (d.addChild parent content).size = d.size + 1 := by
  rw [addChild, size, Forest.size_attachLast]
  exact d.size_add content

/-! ### One new node -/

/-- Setting an attribute of the newest node changes what was added. -/
theorem setAttribute_add (d : Document) (tag : String) (attributes : List (String × String)) (name value : String) :
    (d.add (.element tag attributes)).setAttribute d.size name value =
      d.add (.element tag (setKey (Text.lower name) value attributes)) := by
  have hslots : ∀ i : Nat, ((d.add (.element tag attributes)).setAttribute d.size name value).nodes.slots[i]? =
      (d.add (.element tag (setKey (Text.lower name) value attributes))).nodes.slots[i]? := by
    intro i
    rw [setAttribute, Forest.modifyValue, Forest.slots_modify, add, add, Forest.slots_push, Forest.slots_push]
    by_cases hi : d.size = i
    · rw [if_pos hi, if_pos (show i = d.nodes.size from hi.symm), if_pos (show i = d.nodes.size from hi.symm)]
      rfl
    · have hne : i ≠ d.nodes.size := Ne.symm hi
      rw [if_neg hi, if_neg hne, if_neg hne]
  have hequal := Array.ext_getElem? hslots
  generalize (d.add (.element tag attributes)).setAttribute d.size name value = d₁ at hequal ⊢
  obtain ⟨⟨slots₁⟩⟩ := d₁
  exact congrArg (fun slots => (⟨⟨slots⟩⟩ : Document)) hequal

/-- An element with attributes can be added. -/
theorem Built.add_element (hd : d.Built) (tag : String) (attributes : List (String × String)) :
    (d.add (elementContent tag attributes)).Built := by
  have hset : ∀ (attributes kept : List (String × String)), (d.add (.element (Text.lower tag) kept)).Built →
      (d.add (.element (Text.lower tag)
        (attributes.foldl (fun kept entry => setKey (Text.lower entry.1) entry.2 kept) kept))).Built := by
    intro attributes
    induction attributes with
    | nil => exact fun kept h => h
    | cons first rest ih =>
      intro kept h
      refine ih _ ?_
      rw [← setAttribute_add]
      exact h.setAttribute d.size first.1 first.2
  exact hset attributes [] (hd.element tag)

/-- The newest node is detached and stands above none, so it can be appended to any earlier one. -/
theorem append_add (hd : (d.add content).Sound) (hp : parent < d.size) :
    (d.add content).append parent d.size = .ok (d.addChild parent content) := by
  have hne : d.size ≠ parent := (Nat.ne_of_lt hp).symm
  have hchildren : (d.add content).nodes.children d.size = [] := by
    rw [add, Forest.children_push]
    exact Forest.children_of_size_le (Nat.le_refl _)
  have hparent : (d.add content).nodes.parent? d.size = none := by
    rw [add, Forest.parent?_push]
    exact Forest.parent?_of_size_le (Nat.le_refl _)
  have habove : d.size ∉ (d.add content).nodes.lineage parent := by
    intro hmem
    have hnode := hd.wellFormed.mem_preorder_iff.2 hmem
    rw [hd.wellFormed.preorder_eq, hchildren] at hnode
    exact hne (List.mem_singleton.1 hnode).symm
  have hcontains : ¬(d.add content).nodes.contains d.size parent = true := fun h =>
    habove (Forest.WellFormed.contains_iff.1 h)
  rw [append, if_neg hne, if_neg hcontains, addChild, Forest.detach, hparent]

/-- A node that can be added can be added below an earlier one. -/
theorem Built.addChild (hd : (d.add content).Built) (hp : parent < d.size) : (d.addChild parent content).Built := by
  refine Built.append hd ?_ ?_ (append_add hd.sound hp)
  · rw [size_add]
    exact Nat.lt_succ_of_lt hp
  · rw [size_add]
    exact Nat.lt_succ_self _

/-! ### Whole trees -/

/-- Whatever is kept of a tree can be added. -/
theorem Built.add_contentOf (hd : d.Built) {node : Html.Node} (h : contentOf? node = some content) :
    (d.add content).Built := by
  cases node with
  | element ns tag attributes =>
    cases h
    exact hd.add_element tag attributes
  | text run =>
    rw [contentOf?] at h
    split at h
    · cases h
    · cases h
      exact hd.text run
  | comment text =>
    cases h
    exact hd.comment text
  | document => cases h
  | templateContent => cases h

/-- Copying nodes of a tree keeps a document built, and never makes it smaller. -/
theorem Built.addCopies (tree : Forest Html.Node) (bound : Nat) (hd : d.Built) (hp : parent < d.size)
    (sources : List NodeId) :
    (addCopies tree bound d parent sources).Built ∧ d.size ≤ (addCopies tree bound d parent sources).size := by
  induction bound generalizing d parent sources with
  | zero => exact ⟨hd, Nat.le_refl _⟩
  | succ bound ih =>
    rw [Document.addCopies]
    induction sources generalizing d with
    | nil => exact ⟨hd, Nat.le_refl _⟩
    | cons source rest ihRest =>
      rw [List.foldl_cons]
      cases hcontent : (tree.value? source).bind contentOf? with
      | none => exact ihRest hd hp
      | some content =>
        obtain ⟨node, -, hnode⟩ := Option.bind_eq_some_iff.1 hcontent
        have hchild : (d.addChild parent content).Built := (hd.add_contentOf hnode).addChild hp
        have hlt : d.size < (d.addChild parent content).size := by
          rw [size_addChild]
          exact Nat.lt_succ_self _
        obtain ⟨hbelow, hle⟩ := ih hchild hlt (tree.children source)
        have hgrown := Nat.lt_of_lt_of_le hlt hle
        obtain ⟨hrest, hleRest⟩ := ihRest hbelow (Nat.lt_trans hp hgrown)
        exact ⟨hrest, (Nat.le_of_lt hgrown).trans hleRest⟩

/-- The document that a text of markup writes can be built. -/
theorem built_ofHtml (markup : String) : (ofHtml markup).Built :=
  (Built.empty.addCopies (Html.tree markup) _ (by decide) _).1

/-- So can the document of a fragment. -/
theorem built_ofHtmlFragment {markup : String} (h : ofHtmlFragment markup = .ok d) : d.Built := by
  unfold ofHtmlFragment at h
  dsimp only at h
  split at h
  · cases h
  · cases h
    have hhtml : (empty.addChild root (newElement "html")).Built := (Built.empty.element "html").addChild (by decide)
    exact (hhtml.addCopies (Html.tree markup) _ (by decide) _).1

end ElementLocator.Document
