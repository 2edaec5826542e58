import ElementLocator.Document
import ElementLocator.Proofs.Forest.Edits
import ElementLocator.Proofs.Text.LetterCase

/-!
# Documents that can be built

`Built` lists the documents that the building operations make from the empty one, in any order and number.
`Sound` collects what holds of all of them: the forest is well-formed, node `0` is the one document node, and tags
are in lower case.
-/

namespace ElementLocator.Document

/-- The documents that the building operations make. -/
inductive Built : Document → Prop where
  | empty : Built empty
  | element {d : Document} (tag : String) : Built d → Built (d.add (newElement tag))
  | text {d : Document} (text : String) : Built d → Built (d.add (.text text))
  | comment {d : Document} (text : String) : Built d → Built (d.add (.comment text))
  | append {d d' : Document} {parent child : NodeId} : Built d → parent < d.size → child < d.size →
      d.append parent child = .ok d' → Built d'
  | setAttribute {d : Document} (n : NodeId) (name value : String) : Built d → Built (d.setAttribute n name value)
  | detach {d : Document} (n : NodeId) : Built d → Built (d.detach n)

/-- Only the document node and elements have children. -/
def ElementsNest (d : Document) : Prop :=
  ∀ p n, d.parent? n = some p → p = root ∨ d.isElement p = true

/-- Only numbers of existing nodes have parents. -/
theorem elementsNest_iff {d : Document} :
    d.ElementsNest ↔ ∀ n < d.size, ∀ p ∈ d.parent? n, p = root ∨ d.isElement p = true :=
  ⟨fun h n _ p hp => h p n hp, fun h p n hp => h n (Forest.lt_size_of_parent hp) p hp⟩

instance (d : Document) : Decidable d.ElementsNest := decidable_of_iff _ elementsNest_iff.symm

/-- What holds of every document that can be built. -/
structure Sound (d : Document) : Prop where
  wellFormed : d.nodes.WellFormed
  root_content : d.content? root = some .document
  eq_root : ∀ n, d.content? n = some .document → n = root
  lower_tag : ∀ n tag, d.localName? n = some tag → Text.lower tag = tag

/-- The empty document holds its root, the document node, and nothing else. -/
theorem content?_empty (n : NodeId) : empty.content? n = if n = root then some .document else none := by
  simp only [content?, empty, Forest.value?_push]
  rfl

/-- Adding a node gives the next free node its content and leaves the others alone. -/
theorem content?_add (d : Document) (content : Content) (n : NodeId) :
    (d.add content).content? n = if n = d.size then some content else d.content? n :=
  d.nodes.value?_push content n

/-- Setting an attribute replaces the content of one node, by an element with the same tag if it was one. -/
theorem content?_setAttribute (d : Document) (n : NodeId) (name value : String) (m : NodeId) :
    (d.setAttribute n name value).content? m = if n = m then
      (d.content? m).map fun content => match content with
        | .element tag attributes => .element tag (setKey (Text.lower name) value attributes)
        | other => other
    else d.content? m :=
  d.nodes.value?_modifyValue n _ m

namespace Sound

variable {d d' : Document}

/-- The document node exists. -/
theorem root_lt_size (h : d.Sound) : root < d.size := Forest.lt_size_of_value h.root_content

/-- The document node is no element. -/
theorem isElement_root (h : d.Sound) : d.isElement root = false := by
  simp [isElement, localName?, h.root_content]

/-- Soundness depends on the links and, node by node, on what each node is. -/
theorem of_content (h : d.Sound) (hwf : d'.nodes.WellFormed) (hcontent : ∀ n, d'.content? n = d.content? n) :
    d'.Sound where
  wellFormed := hwf
  root_content := by rw [hcontent]; exact h.root_content
  eq_root n hn := h.eq_root n (hcontent n ▸ hn)
  lower_tag n tag htag := by
    refine h.lower_tag n tag ?_
    simpa only [localName?, hcontent] using htag

/-- The empty document is sound. -/
theorem empty : Sound Document.empty where
  wellFormed := Forest.wellFormed_empty.push _
  root_content := by simp [content?_empty]
  eq_root n hn := by
    by_contra hne
    simp [content?_empty, hne] at hn
  lower_tag n tag htag := by
    obtain ⟨attributes, hn⟩ := localName?_eq_some_iff.1 htag
    rw [content?_empty] at hn
    split at hn <;> simp at hn

/-- A new node other than a document node keeps a document sound if its tag is in lower case. -/
theorem add (h : d.Sound) {content : Content} (hdocument : content ≠ .document)
    (htag : ∀ tag attributes, content = .element tag attributes → Text.lower tag = tag) :
    (d.add content).Sound where
  wellFormed := h.wellFormed.push content
  root_content := by
    rw [content?_add, if_neg (Nat.ne_of_lt h.root_lt_size), h.root_content]
  eq_root n hn := by
    rw [content?_add] at hn
    split at hn
    · exact absurd (Option.some.inj hn) hdocument
    · exact h.eq_root n hn
  lower_tag n tag hn := by
    obtain ⟨attributes, hn⟩ := localName?_eq_some_iff.1 hn
    rw [content?_add] at hn
    split at hn
    · exact htag tag attributes (Option.some.inj hn)
    · exact h.lower_tag n tag (localName?_eq_some_iff.2 ⟨attributes, hn⟩)

/-- Detaching a node keeps the document sound. -/
theorem detach (h : d.Sound) (n : NodeId) : (d.detach n).Sound :=
  h.of_content (h.wellFormed.detach n) fun m => by simp [content?, Document.detach]

/-- Appending keeps the document sound, since a node is never put below itself. -/
theorem append (h : d.Sound) {parent child : NodeId} (hp : parent < d.size) (hc : child < d.size)
    (hok : d.append parent child = .ok d') : d'.Sound := by
  simp only [Document.append] at hok
  split at hok
  · cases hok
  split at hok
  · cases hok
  · next habove =>
    cases hok
    refine h.of_content ?_ fun m => by simp [content?]
    refine (h.wellFormed.detach child).attachLast ?_ ?_ (by simp) fun hmem => habove ?_
    · rw [Forest.size_detach]; exact hp
    · rw [Forest.size_detach]; exact hc
    · exact Forest.WellFormed.contains_iff.2 (h.wellFormed.mem_lineage_of_detach hmem)

/-- Setting an attribute keeps the document sound, since it moves no node. -/
theorem setAttribute (h : d.Sound) (n : NodeId) (name value : String) : (d.setAttribute n name value).Sound where
  wellFormed := by
    unfold Document.setAttribute
    dsimp only
    apply h.wellFormed.modifyValue
  root_content := by
    rw [content?_setAttribute, h.root_content]
    split <;> rfl
  eq_root m hm := by
    refine h.eq_root m ?_
    rw [content?_setAttribute] at hm
    split at hm
    · obtain ⟨content, hcontent, hdocument⟩ := Option.map_eq_some_iff.1 hm
      cases content <;> simp_all
    · exact hm
  lower_tag m tag hm := by
    obtain ⟨attributes, hm⟩ := localName?_eq_some_iff.1 hm
    rw [content?_setAttribute] at hm
    split at hm
    · obtain ⟨content, hcontent, htag⟩ := Option.map_eq_some_iff.1 hm
      cases content with
      | element tag' attributes' =>
        cases htag
        exact h.lower_tag m tag (localName?_eq_some_iff.2 ⟨attributes', hcontent⟩)
      | _ => cases htag
    · exact h.lower_tag m tag (localName?_eq_some_iff.2 ⟨attributes, hm⟩)

end Sound

/-- Every document that can be built is sound. -/
theorem Built.sound {d : Document} (h : d.Built) : d.Sound := by
  induction h with
  | empty => exact Sound.empty
  | element tag _ ih => exact ih.add nofun fun _ _ heq => by cases heq; exact Text.lower_lower tag
  | text text _ ih => exact ih.add nofun nofun
  | comment text _ ih => exact ih.add nofun nofun
  | append _ hp hc hok ih => exact ih.append hp hc hok
  | setAttribute n name value _ ih => exact ih.setAttribute n name value
  | detach n _ ih => exact ih.detach n

end ElementLocator.Document
