import ElementLocator.Document.Snapshot
import ElementLocator.Proofs.Document.History

/-!
# What a snapshot keeps

The snapshot of a document is settled by its tree without comments, with texts that are neighbours joined and with
attributes sorted by name. Of each node it shows all element children in order, and between them texts that are not
blank, of which no two are neighbours.
-/

namespace ElementLocator.Document

/-! ### Trees -/

/-- A node with everything below it. -/
inductive Tree where
  | element (tag : String) (attributes : List (String × String)) (children : List Tree)
  | text (content : String)
  | comment (content : String)

namespace Tree

/-- The trees without the comments at any level. -/
def withoutComments : List Tree → List Tree
  | [] => []
  | .element tag attributes children :: rest =>
    .element tag attributes (withoutComments children) :: withoutComments rest
  | .text content :: rest => .text content :: withoutComments rest
  | .comment _ :: rest => withoutComments rest

/-- A text in front of trees, as one with the text that they may start with. -/
def attachText (content : String) : List Tree → List Tree
  | .text next :: rest => .text (content ++ next) :: rest
  | ts => .text content :: ts

/-- The trees with texts that are neighbours written as one, at every level. -/
def joined : List Tree → List Tree
  | [] => []
  | .element tag attributes children :: rest => .element tag attributes (joined children) :: joined rest
  | .text content :: rest => attachText content (joined rest)
  | .comment content :: rest => .comment content :: joined rest

/-- The trees with attributes sorted by name, at every level. -/
def sorted : List Tree → List Tree
  | [] => []
  | .element tag attributes children :: rest =>
    .element tag (Snapshot.sortByName attributes) (sorted children) :: sorted rest
  | .text content :: rest => .text content :: sorted rest
  | .comment content :: rest => .comment content :: sorted rest

/-- What counts of trees: no comments, joined texts, sorted attributes. -/
def essence (ts : List Tree) : List Tree := sorted (joined (withoutComments ts))

end Tree

/-- A node as a tree, with at most `bound` levels below it. What stands below texts and comments is left out. -/
def treesWithin (d : Document) : Nat → NodeId → List Tree
  | 0, _ => []
  | bound + 1, n =>
    match d.content? n with
    | some (.element tag attributes) => [.element tag attributes ((d.nodes.children n).flatMap (treesWithin d bound))]
    | some (.text content) => [.text content]
    | some (.comment content) => [.comment content]
    | _ => []

/-- The tree of a node. -/
def treesAt (d : Document) (n : NodeId) : List Tree := d.treesWithin d.size n

/-- The trees below the document node. -/
def trees (d : Document) : List Tree := (d.nodes.children root).flatMap d.treesAt

/-! ### Snapshots from trees -/

namespace Tree

/-- What trees contribute to a snapshot, before texts are joined. -/
def contributions : List Tree → List Snapshot
  | [] => []
  | .element tag attributes children :: rest =>
    .element tag (Snapshot.sortByName attributes) (Snapshot.joinTexts "" (contributions children)) ::
      contributions rest
  | .text content :: rest => .text content :: contributions rest
  | .comment _ :: rest => contributions rest

/-- The snapshot of trees in which texts are joined and attributes are sorted already. -/
def visible : List Tree → List Snapshot
  | [] => []
  | .element tag attributes children :: rest => .element tag attributes (visible children) :: visible rest
  | .text content :: rest => Snapshot.flush content (visible rest)
  | .comment _ :: rest => visible rest

/-- Two lists of trees contribute one after the other. -/
theorem contributions_append (ts us : List Tree) : contributions (ts ++ us) = contributions ts ++ contributions us := by
  induction ts with
  | nil => simp [contributions]
  | cons t ts ih => cases t <;> simp [contributions, ih]

/-- Trees given item by item contribute item by item. -/
theorem contributions_flatMap {α : Type} (f : α → List Tree) (l : List α) :
    contributions (l.flatMap f) = l.flatMap fun a => contributions (f a) := by
  induction l with
  | nil => simp [contributions]
  | cons a l ih => rw [List.flatMap_cons, List.flatMap_cons, contributions_append, ih]

/-- Two texts attached in front are one text. -/
theorem attachText_attachText (a b : String) (ts : List Tree) :
    attachText a (attachText b ts) = attachText (a ++ b) ts := by
  rcases ts with _ | ⟨_ | _ | _, rest⟩ <;> simp [attachText, String.append_assoc]

/-- An empty text in front is not seen. -/
theorem visible_attachText_empty (ts : List Tree) : visible (sorted (attachText "" ts)) = visible (sorted ts) := by
  rcases ts with _ | ⟨_ | _ | _, rest⟩ <;> simp [attachText, visible, sorted, Snapshot.flush, Text.isBlank]

/-- Joining the texts of what trees contribute, behind a text that was collected already. By induction along the trees
and into their children, where nothing is collected at first. -/
theorem joinTexts_contributions (collected : String) (ts : List Tree) :
    Snapshot.joinTexts collected (contributions ts) =
      visible (sorted (attachText collected (joined (withoutComments ts)))) := by
  fun_induction contributions ts generalizing collected with
  | case1 => simp [withoutComments, joined, attachText, sorted, visible, Snapshot.joinTexts]
  | case2 tag attributes children rest ihchildren ihrest =>
    have hchildren := ihchildren ""
    have hrest := ihrest ""
    rw [visible_attachText_empty] at hchildren hrest
    simp [withoutComments, joined, attachText, sorted, visible, Snapshot.joinTexts, hchildren, hrest]
  | case3 content rest ih =>
    rw [withoutComments, joined, attachText_attachText, Snapshot.joinTexts, ih]
  | case4 content rest ih => rw [withoutComments, ih]

/-- The snapshot of trees depends only on what counts of them. -/
theorem joinTexts_contributions_empty (ts : List Tree) :
    Snapshot.joinTexts "" (contributions ts) = visible (essence ts) := by
  rw [joinTexts_contributions, visible_attachText_empty, essence]

end Tree

/-- Up to any level, a node contributes what its tree does. -/
theorem snapshotWithin_eq (d : Document) (bound : Nat) (n : NodeId) :
    d.snapshotWithin bound n = Tree.contributions (d.treesWithin bound n) := by
  induction bound generalizing n with
  | zero => simp [snapshotWithin, treesWithin, Tree.contributions]
  | succ bound ih =>
    have hchildren : (d.nodes.children n).flatMap (d.snapshotWithin bound) =
        Tree.contributions ((d.nodes.children n).flatMap (d.treesWithin bound)) := by
      rw [Tree.contributions_flatMap]
      exact List.flatMap_congr fun c _ => ih c
    rw [snapshotWithin, treesWithin, hchildren]
    rcases d.content? n with _ | _ | _ | _ | _ <;> simp [Tree.contributions]

/-- The snapshot is what is visible of the essence of the trees. -/
theorem snapshot_eq (d : Document) : d.snapshot = Tree.visible (Tree.essence d.trees) := by
  rw [← Tree.joinTexts_contributions_empty, trees, Tree.contributions_flatMap, snapshot]
  exact congrArg (Snapshot.joinTexts "") (List.flatMap_congr fun c _ => snapshotWithin_eq d d.size c)

/-- The tree of a node is its content with the trees of its children. -/
theorem Sound.treesAt_eq {d : Document} (h : d.Sound) (n : NodeId) :
    d.treesAt n = match d.content? n with
      | some (.element tag attributes) => [.element tag attributes ((d.nodes.children n).flatMap d.treesAt)]
      | some (.text content) => [.text content]
      | some (.comment content) => [.comment content]
      | _ => [] := by
  refine h.wellFormed.walk_eq d.treesWithin (fun n below => match d.content? n with
      | some (.element tag attributes) => [.element tag attributes below]
      | some (.text content) => [.text content]
      | some (.comment content) => [.comment content]
      | _ => []) (fun _ _ => rfl) (fun n hn => ?_) n
  have hnone : d.content? n = none := Forest.value?_of_size_le hn
  simp [treesWithin, hnone]

end ElementLocator.Document

namespace ElementLocator

/-! ### Joined texts -/

namespace Snapshot

variable {collected content : String} {nodes : List Snapshot}

/-- The node is a text. -/
def isText : Snapshot → Bool
  | .text _ => true
  | .element .. => false

/-- Flushed in front of snapshots that do not begin with a text, the collected text makes no two texts stand side by
side. -/
theorem isChain_flush (h : nodes.IsChain fun a b => ¬(a.isText ∧ b.isText))
    (hhead : ∀ node ∈ nodes.head?, node.isText = false) (collected : String) :
    (flush collected nodes).IsChain fun a b => ¬(a.isText ∧ b.isText) := by
  rw [flush]
  split
  · exact h
  · exact List.isChain_cons.2 ⟨fun node hnode => by simp [hhead node hnode], h⟩

/-- Joined texts are no neighbours. -/
theorem isChain_joinTexts (collected : String) (nodes : List Snapshot) :
    (joinTexts collected nodes).IsChain fun a b => ¬(a.isText ∧ b.isText) := by
  fun_induction joinTexts collected nodes with
  | case1 collected => exact isChain_flush .nil nofun collected
  | case2 collected content rest ih => exact ih
  | case3 collected tag attributes children rest ih =>
    exact isChain_flush (List.isChain_cons.2 ⟨fun node _ => by simp [isText], ih⟩) (by simp [isText]) collected

/-- A text of the flushed snapshots is not blank, or it was there before. -/
theorem mem_flush (h : .text content ∈ flush collected nodes) :
    Text.isBlank content = false ∨ .text content ∈ nodes := by
  rw [flush] at h
  split at h
  · exact .inr h
  · next hblank =>
    rcases List.mem_cons.1 h with heq | hmem
    · cases heq
      exact .inl (by simpa using hblank)
    · exact .inr hmem

/-- Joined texts are not blank. -/
theorem isBlank_of_mem_joinTexts (h : .text content ∈ joinTexts collected nodes) : Text.isBlank content = false := by
  fun_induction joinTexts collected nodes with
  | case1 collected => exact (mem_flush h).resolve_right List.not_mem_nil
  | case2 collected content' rest ih => exact ih h
  | case3 collected tag attributes children rest ih =>
    rcases mem_flush h with hblank | hmem
    · exact hblank
    · exact ih (by simpa using hmem)

/-- Joining texts leaves the elements alone. -/
theorem filter_joinTexts (collected : String) (nodes : List Snapshot) :
    (joinTexts collected nodes).filter (!·.isText) = nodes.filter (!·.isText) := by
  have hflush : ∀ (content : String) (later : List Snapshot),
      (flush content later).filter (!·.isText) = later.filter (!·.isText) := by
    intro content later
    rw [flush]
    split <;> simp [isText]
  fun_induction joinTexts collected nodes with
  | case1 collected => exact hflush collected []
  | case2 collected content rest ih => rw [ih, List.filter_cons_of_neg (by simp [isText])]
  | case3 collected tag attributes children rest ih =>
    rw [hflush, List.filter_cons_of_pos (by simp [isText]), List.filter_cons_of_pos (by simp [isText]), ih]

/-- A list of snapshots is written member by member. -/
theorem listToJson_eq_map (nodes : List Snapshot) : listToJson nodes = nodes.map toJson := by
  induction nodes with
  | nil => rfl
  | cons node rest ih => rw [listToJson, ih, List.map_cons]

end Snapshot

/-! ### What a snapshot shows -/

namespace Json

/-- The value of a member of an object. -/
def member? (name : String) : Json → Option Json
  | .object members => members.lookup name
  | _ => none

/-- The kind of node that an object stands for. -/
def kind? (item : Json) : Option String :=
  match item.member? "type" with
  | some (.string kind) => some kind
  | _ => none

/-- The text of an object that stands for a text. -/
def text? (item : Json) : Option String :=
  match item.kind?, item.member? "text" with
  | some "text", some (.string content) => some content
  | _, _ => none

end Json

/-- The kind of a written snapshot says whether it is a text or an element. -/
theorem Snapshot.kind?_toJson (node : Snapshot) :
    node.toJson.kind? = some (if node.isText then "text" else "element") := by
  cases node <;> rfl

namespace Document

variable {d : Document} {n : NodeId}

/-- The texts in front of the elements among nodes and behind the last one, each run of texts written as one;
`collected` is the text in front of the nodes. -/
def textRuns (d : Document) (collected : String) : List NodeId → List String
  | [] => [collected]
  | n :: rest =>
    match d.content? n with
    | some (.element _ _) => collected :: d.textRuns "" rest
    | some (.text content) => d.textRuns (collected ++ content) rest
    | _ => d.textRuns collected rest

mutual

/-- Items show what is below a node if they are objects for its element children, in order and none left out, and for
texts between them that are not blank and no neighbours of each other. -/
inductive ShowsBelow (d : Document) : NodeId → List Json → Prop where
  | intro {n : NodeId} {items : List Json}
    (kinds : ∀ item ∈ items, item.kind? = some "text" ∨ item.kind? = some "element")
    (apart : items.IsChain fun a b => ¬(a.kind? = some "text" ∧ b.kind? = some "text"))
    (visible : ∀ item ∈ items, item.kind? = some "text" →
      ∃ content, item.text? = some content ∧ Text.isBlank content = false)
    (texts : items.filterMap Json.text? = (d.textRuns "" (d.nodes.children n)).filter (!Text.isBlank ·))
    (elements : List.Forall₂ (ShowsElement d) (d.elementChildren n) (items.filter (·.kind? = some "element"))) :
    ShowsBelow d n items

/-- An object shows an element with its tag, its attributes and what is below it. -/
inductive ShowsElement (d : Document) : NodeId → Json → Prop where
  | intro {n : NodeId} {item : Json} {tag : String} {attributes : List (String × String)} {items : List Json}
    (content : d.content? n = some (.element tag attributes))
    (tag_eq : item.member? "tag" = some (.string tag))
    (attributes_eq : item.member? "attrs" =
      some (.object ((Snapshot.sortByName attributes).map fun (name, value) => (name, .string value))))
    (children_eq : item.member? "children" = some (.array items))
    (below : ShowsBelow d n items) :
    ShowsElement d n item

end

/-- An object shows a document with what is below the document node. -/
structure Shows (d : Document) (item : Json) : Prop where
  kind : item.kind? = some "document"
  children : ∃ items, item.member? "children" = some (.array items) ∧ d.ShowsBelow root items

/-- What a node contributes to the snapshot, before texts are joined. -/
def snapshotAt (d : Document) (n : NodeId) : List Snapshot := d.snapshotWithin d.size n

/-- The nodes of the snapshot below a node. -/
def snapshotBelow (d : Document) (n : NodeId) : List Snapshot :=
  Snapshot.joinTexts "" ((d.nodes.children n).flatMap d.snapshotAt)

/-- The snapshot of a node is told by its content: an element with its sorted attributes, a text, or nothing. -/
theorem Sound.snapshotAt_eq (h : d.Sound) (n : NodeId) :
    d.snapshotAt n = match d.content? n with
      | some (.element tag attributes) => [.element tag (Snapshot.sortByName attributes) (d.snapshotBelow n)]
      | some (.text content) => [.text content]
      | _ => [] := by
  have hbelow : d.snapshotBelow n =
      Snapshot.joinTexts "" (Tree.contributions ((d.nodes.children n).flatMap d.treesAt)) := by
    rw [Tree.contributions_flatMap]
    exact congrArg (Snapshot.joinTexts "") (List.flatMap_congr fun c _ => snapshotWithin_eq d d.size c)
  rw [snapshotAt, snapshotWithin_eq, ← treesAt, h.treesAt_eq, hbelow]
  rcases d.content? n with _ | _ | _ | _ | _ <;> simp [Tree.contributions]

/-- The texts of the snapshot are the runs of texts that are not blank. -/
theorem filterMap_text?_joinTexts (h : d.Sound) (collected : String) (ns : List NodeId) :
    ((Snapshot.joinTexts collected (ns.flatMap d.snapshotAt)).map Snapshot.toJson).filterMap Json.text? =
      (d.textRuns collected ns).filter (!Text.isBlank ·) := by
  have hflush : ∀ (content : String) (later : List Snapshot),
      ((Snapshot.flush content later).map Snapshot.toJson).filterMap Json.text? =
        [content].filter (!Text.isBlank ·) ++ (later.map Snapshot.toJson).filterMap Json.text? := by
    intro content later
    have htext : (Snapshot.text content).toJson.text? = some content := rfl
    rw [Snapshot.flush]
    cases hblank : Text.isBlank content <;> simp [hblank, htext]
  induction ns generalizing collected with
  | nil => simpa [textRuns, Snapshot.joinTexts] using hflush collected []
  | cons n rest ih =>
    rw [List.flatMap_cons, h.snapshotAt_eq, textRuns]
    cases hcontent : d.content? n with
    | none => exact ih collected
    | some content =>
      cases content with
      | element tag attributes =>
        have helement : ∀ tag attributes children, (Snapshot.element tag attributes children).toJson.text? = none :=
          fun _ _ _ => rfl
        simp only [List.singleton_append, Snapshot.joinTexts, hflush, List.map_cons]
        rw [List.filterMap_cons_none (helement _ _ _), ih, ← List.filter_append, List.singleton_append]
      | text content => exact ih (collected ++ content)
      | _ => exact ih collected

/-- The elements of the snapshot below a node show its element children. -/
theorem forall₂_showsElement (h : d.Sound) (ns : List NodeId)
    (hns : ∀ n ∈ ns, d.ShowsBelow n (Snapshot.listToJson (d.snapshotBelow n))) :
    List.Forall₂ d.ShowsElement (ns.filter d.isElement)
      (((ns.flatMap d.snapshotAt).filter (!·.isText)).map Snapshot.toJson) := by
  induction ns with
  | nil => exact .nil
  | cons n rest ih =>
    obtain ⟨hn, hrest⟩ := List.forall_mem_cons.1 hns
    have hlater := ih hrest
    rw [List.flatMap_cons, List.filter_append, List.map_append, h.snapshotAt_eq]
    cases hcontent : d.content? n with
    | none => simpa [isElement, localName?, hcontent] using hlater
    | some content =>
      cases content with
      | element tag attributes =>
        have helement : d.isElement n = true := by simp [isElement, localName?, hcontent]
        rw [List.filter_cons_of_pos helement]
        exact .cons (.intro hcontent rfl rfl rfl hn) hlater
      | _ => simpa [isElement, localName?, hcontent, Snapshot.isText] using hlater

/-- Below every node, the snapshot shows what is there. -/
theorem Sound.showsBelow (h : d.Sound) (n : NodeId) :
    d.ShowsBelow n (Snapshot.listToJson (d.snapshotBelow n)) := by
  induction n using h.wellFormed.induction_from_bottom with
  | step n ih =>
    have hkind := Snapshot.kind?_toJson
    rw [Snapshot.listToJson_eq_map]
    constructor
    case kinds =>
      rintro item hitem
      obtain ⟨node, -, rfl⟩ := List.mem_map.1 hitem
      rw [hkind]
      cases node.isText <;> simp
    case apart =>
      rw [List.isChain_map]
      refine (Snapshot.isChain_joinTexts "" _).imp fun a b hab => ?_
      rw [hkind, hkind]
      simpa using hab
    case visible =>
      rintro item hitem htext
      obtain ⟨node, hnode, rfl⟩ := List.mem_map.1 hitem
      cases node with
      | text content => exact ⟨content, rfl, Snapshot.isBlank_of_mem_joinTexts hnode⟩
      | element tag attributes children => simp [hkind, Snapshot.isText] at htext
    case texts => exact filterMap_text?_joinTexts h "" _
    case elements =>
      have hfilter : (fun item : Json => decide (item.kind? = some "element")) ∘ Snapshot.toJson = (!·.isText) := by
        funext node
        rw [Function.comp_apply, hkind]
        cases node.isText <;> rfl
      rw [List.filter_map, hfilter, snapshotBelow, Snapshot.filter_joinTexts, elementChildren]
      exact forall₂_showsElement h _ ih

/-- A sound document shows what is written of it. -/
theorem Sound.shows (h : d.Sound) : d.Shows d.toJson where
  kind := rfl
  children := ⟨_, rfl, h.showsBelow root⟩

/-- The snapshot of a document shows it, and is the same for all documents whose trees agree in what counts. -/
theorem toJson_settled (hd : d.Built) :
    d.Shows d.toJson ∧
      ∀ d' : Document, d'.Built → Tree.essence d.trees = Tree.essence d'.trees → d.toJson = d'.toJson := by
  constructor
  · exact hd.sound.shows
  · intro d' _ heq
    rw [toJson, toJson, snapshot_eq, snapshot_eq, heq]

/-- A paragraph whose text is in three pieces, with a comment between two of them. -/
def splitParagraph : Document :=
  empty.edits
    [.element "p", .append 0 1, .setAttribute 1 "title" "t", .setAttribute 1 "class" "c", .text "one ", .append 1 2,
      .comment "note", .append 1 3, .text "two", .append 1 4, .text " three", .append 1 5, .element "br", .append 1 6]

/-- The same paragraph with its text in one piece, and its attributes the other way round. -/
def wholeParagraph : Document :=
  empty.edits
    [.element "p", .append 0 1, .setAttribute 1 "class" "c", .setAttribute 1 "title" "t", .text "one two three",
      .append 1 2, .element "br", .append 1 3]

/-- The paragraph in two texts and the paragraph in one have the same essence and are written alike. -/
theorem toJson_settled_paragraph :
    splitParagraph.Built ∧ wholeParagraph.Built ∧
      Tree.essence splitParagraph.trees = Tree.essence wholeParagraph.trees ∧
      splitParagraph.Shows splitParagraph.toJson ∧ splitParagraph.toJson = wholeParagraph.toJson :=
  have hsplit : splitParagraph.Built := built_edits (by decide)
  have hwhole : wholeParagraph.Built := built_edits (by decide)
  have hessence : Tree.essence splitParagraph.trees = Tree.essence wholeParagraph.trees := by
    have htrees : splitParagraph.trees = [.element "p" [("title", "t"), ("class", "c")]
        [.text "one ", .comment "note", .text "two", .text " three", .element "br" [] []]] := rfl
    have htrees' : wholeParagraph.trees = [.element "p" [("class", "c"), ("title", "t")]
        [.text "one two three", .element "br" [] []]] := rfl
    have hattributes : Snapshot.sortByName [("title", "t"), ("class", "c")] =
        Snapshot.sortByName [("class", "c"), ("title", "t")] := by
      simp [Snapshot.sortByName, List.mergeSort, List.MergeSort.Internal.splitInTwo]
    rw [htrees, htrees']
    simp [Tree.essence, Tree.withoutComments, Tree.joined, Tree.attachText, Tree.sorted, hattributes]
  have hsettled := toJson_settled hsplit
  ⟨hsplit, hwhole, hessence, hsettled.1, hsettled.2 wholeParagraph hwhole hessence⟩

end Document

end ElementLocator
