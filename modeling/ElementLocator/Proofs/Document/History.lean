import ElementLocator.Proofs.Document.Built
import ElementLocator.Proofs.Forest.Moves

/-!
# Histories of a document

A history lists edits that start from the document node alone; each of them is about nodes that exist by then, and a
refused one changes nothing. After every history the links form a forest, an append is refused exactly when it would
close a circle, and otherwise it moves one subtree and nothing else. The history also settles the attributes: an
element has the names that were set, in the order in which each was set first, with the values that were set last.
-/

namespace ElementLocator.Document

variable {d d' : Document} {n p c : NodeId} {key value name : String}

/-! ### Edits -/

/-- What can be done to a document. -/
inductive Edit where
  | element (tag : String)
  | text (text : String)
  | comment (text : String)
  | append (parent child : NodeId)
  | setAttribute (n : NodeId) (name value : String)
  | detach (n : NodeId)
  deriving Repr, DecidableEq

/-- The nodes that an edit is about. -/
def Edit.nodes : Edit → List NodeId
  | .append parent child => [parent, child]
  | .setAttribute n _ _ => [n]
  | .detach n => [n]
  | _ => []

/-- The document after an edit. -/
def edit (d : Document) : Edit → Document
  | .element tag => d.add (newElement tag)
  | .text text => d.add (.text text)
  | .comment text => d.add (.comment text)
  | .append parent child =>
    match d.append parent child with
    | .ok d' => d'
    | .error _ => d
  | .setAttribute n name value => d.setAttribute n name value
  | .detach n => d.detach n

/-- The document after edits. -/
def edits (d : Document) (history : List Edit) : Document := history.foldl edit d

/-- Each edit is about nodes that exist by then. -/
def Possible (d : Document) : List Edit → Prop
  | [] => True
  | e :: rest => (∀ n ∈ e.nodes, n < d.size) ∧ (d.edit e).Possible rest

instance Possible.decidable (d : Document) : (history : List Edit) → Decidable (d.Possible history)
  | [] => .isTrue trivial
  | e :: rest => @instDecidableAnd _ _ inferInstance (Possible.decidable (d.edit e) rest)

/-- An edit of nodes of the document leads from a built document to a built one. -/
theorem Built.edit (hd : d.Built) {e : Edit} (he : ∀ n ∈ e.nodes, n < d.size) : (d.edit e).Built := by
  cases e with
  | element tag => exact hd.element tag
  | text text => exact hd.text text
  | comment text => exact hd.comment text
  | append parent child =>
    rw [Document.edit]
    split
    · next d' hok => exact hd.append (he parent (by simp [Edit.nodes])) (he child (by simp [Edit.nodes])) hok
    · exact hd
  | setAttribute n name value => exact hd.setAttribute n name value
  | detach n => exact hd.detach n

/-- What holds at the start and is kept by every edit of a built document holds after every history. -/
theorem history_induction {P : List Edit → Document → Prop} (start : P [] empty)
    (step : ∀ past d e, d.Built → (∀ n ∈ e.nodes, n < d.size) → P past d → P (past ++ [e]) (d.edit e))
    {history : List Edit} (h : empty.Possible history) : P history (empty.edits history) := by
  have hrun : ∀ (rest past : List Edit) (d : Document), d.Built → d.Possible rest → P past d →
      P (past ++ rest) (d.edits rest) := by
    intro rest
    induction rest with
    | nil =>
      intro past d _ _ hpast
      rw [List.append_nil]
      exact hpast
    | cons e rest ih =>
      intro past d hd hpossible hpast
      obtain ⟨he, hrest⟩ := hpossible
      have hnext := ih (past ++ [e]) (d.edit e) (hd.edit he) hrest (step past d e hd he hpast)
      rwa [List.append_assoc, List.singleton_append] at hnext
  exact hrun history [] empty .empty h start

/-- The document after a possible history can be built. -/
theorem built_edits {history : List Edit} (h : empty.Possible history) : (empty.edits history).Built :=
  history_induction (P := fun _ d => d.Built) .empty (fun _ _ _ hd he _ => hd.edit he) h

/-! ### Appending -/

/-- The node is an ancestor of the other one. -/
def Above (d : Document) (a n : NodeId) : Prop := d.nodes.Above a n

/-- The one document is the other one after a node, with its subtree, has become the last child of a parent. -/
structure Moved (d d' : Document) (p c : NodeId) : Prop where
  parent : ∀ n, d'.parent? n = if n = c then some p else d.parent? n
  children : ∀ n, d'.nodes.children n = (d.nodes.children n).filter (· != c) ++ if n = p then [c] else []
  subtree : d'.nodes.preorder c = d.nodes.preorder c
  inside : ∀ n ∈ d.nodes.preorder c, d'.nodes.children n = d.nodes.children n
  content : ∀ n, d'.content? n = d.content? n

namespace Sound

/-- A node contains another exactly if it is that node or above it. -/
theorem contains_iff_above (h : d.Sound) : d.nodes.contains c p = true ↔ c = p ∨ d.Above c p :=
  Forest.WellFormed.contains_iff.trans h.wellFormed.mem_lineage_iff_above

/-- An append is refused if it would close a circle. -/
theorem append_eq_error_iff (h : d.Sound) {e : AppendError} : d.append p c = .error e ↔
    c = p ∧ e = ⟨p, c, .itself⟩ ∨ c ≠ p ∧ d.Above c p ∧ e = ⟨p, c, .descendant⟩ := by
  have hcontains := h.contains_iff_above (c := c) (p := p)
  rw [Document.append]
  by_cases hself : c = p
  · simp [hself, eq_comm]
  · by_cases habove : d.nodes.contains c p = true
    · simp [hself, habove, (hcontains.1 habove).resolve_left hself, eq_comm]
    · have hnot : ¬d.Above c p := fun h => habove (hcontains.2 (.inr h))
      simp [hself, habove, hnot]

/-- Appending a node below itself is refused and leaves the document as it is. -/
theorem edit_append_of_above (h : d.Sound) (hcircle : c = p ∨ d.Above c p) : d.edit (.append p c) = d := by
  have herror : ∃ e, d.append p c = .error e := by
    by_cases hself : c = p
    · exact ⟨_, h.append_eq_error_iff.2 (.inl ⟨hself, rfl⟩)⟩
    · exact ⟨_, h.append_eq_error_iff.2 (.inr ⟨hself, hcircle.resolve_left hself, rfl⟩)⟩
  obtain ⟨e, he⟩ := herror
  rw [edit, he]

/-- An append that closes no circle moves the child. -/
theorem moved_of_not_above (h : d.Sound) (hp : p < d.size) (hc : c < d.size) (hcircle : ¬(c = p ∨ d.Above c p)) :
    Moved d (d.edit (.append p c)) p c := by
  have hcontains : ¬d.nodes.contains c p = true := fun h' => hcircle (h.contains_iff_above.1 h')
  have habove : c ∉ d.nodes.lineage p := fun hmem => hcontains (Forest.WellFormed.contains_iff.2 hmem)
  have hmoved : d.edit (.append p c) = { nodes := (d.nodes.detach c).attachLast p c } := by
    rw [edit, Document.append, if_neg fun heq => hcircle (.inl heq), if_neg hcontains]
  rw [hmoved]
  exact {
    parent := Forest.parent?_move hc p
    children := h.wellFormed.children_move hp c
    subtree := h.wellFormed.preorder_move hp habove
    inside := fun n hn => h.wellFormed.children_move_of_mem hp habove (h.wellFormed.mem_preorder_iff.1 hn)
    content := fun n => by simp [content?] }

end Sound

/-! ### Setting keys -/

/-- Sets keys one after the other. -/
def setKeys (settings : List (String × String)) : List (String × String) :=
  settings.foldl (fun kept setting => setKey setting.1 setting.2 kept) []

/-- Keys set one after the other: the last one is set on top of what the earlier ones give. -/
theorem setKeys_concat (settings : List (String × String)) (key value : String) :
    setKeys (settings ++ [(key, value)]) = setKey key value (setKeys settings) := by
  rw [setKeys, List.foldl_append]
  rfl

/-- A new key goes behind the others. -/
theorem map_fst_setKey (key value : String) (entries : List (String × String)) :
    (setKey key value entries).map Prod.fst =
      if key ∈ entries.map Prod.fst then entries.map Prod.fst else entries.map Prod.fst ++ [key] := by
  induction entries with
  | nil => rfl
  | cons entry rest ih =>
    obtain ⟨k, v⟩ := entry
    rw [setKey]
    by_cases hk : k = key
    · simp [hk]
    · rw [if_neg hk, List.map_cons, ih]
      by_cases hmem : key ∈ rest.map Prod.fst <;> simp [hmem, Ne.symm hk]

/-- The first entry decides a look-up unless its name is another one. -/
theorem lookup_cons_eq_ite (name key value : String) (entries : List (String × String)) :
    ((key, value) :: entries).lookup name = if name = key then some value else entries.lookup name := by
  by_cases hname : name = key
  · simp [hname]
  · rw [List.lookup_cons, beq_false_of_ne hname, if_neg hname]

/-- Setting a key changes what is found under it, and nothing else. -/
theorem lookup_setKey (key value name : String) (entries : List (String × String)) :
    (setKey key value entries).lookup name = if name = key then some value else entries.lookup name := by
  induction entries with
  | nil => exact lookup_cons_eq_ite name key value []
  | cons entry rest ih =>
    obtain ⟨k, v⟩ := entry
    rw [setKey]
    by_cases hk : k = key
    · subst hk
      rw [if_pos rfl, lookup_cons_eq_ite, lookup_cons_eq_ite]
      split <;> rfl
    · rw [if_neg hk, lookup_cons_eq_ite, lookup_cons_eq_ite, ih]
      by_cases hname : name = k
      · rw [if_pos hname, if_neg (hname ▸ hk), if_pos hname]
      · rw [if_neg hname, if_neg hname]

/-- The keys stand in the order in which they were set first. -/
theorem map_fst_setKeys (settings : List (String × String)) :
    (setKeys settings).map Prod.fst = (settings.map Prod.fst).eraseDups := by
  induction settings using List.reverseRecOn with
  | nil => rfl
  | append_singleton settings setting ih =>
    obtain ⟨key, value⟩ := setting
    rw [setKeys_concat, map_fst_setKey, ih, List.map_append, List.eraseDups_append]
    by_cases hmem : key ∈ settings.map Prod.fst
    · simp [List.removeAll, List.mem_eraseDups, hmem]
    · simp [List.removeAll, List.mem_eraseDups, hmem, List.eraseDups_cons]

/-- Set keys never repeat a name. -/
theorem nodup_map_fst_setKeys (settings : List (String × String)) : ((setKeys settings).map Prod.fst).Nodup := by
  induction settings using List.reverseRecOn with
  | nil => exact List.nodup_nil
  | append_singleton settings setting ih =>
    rw [setKeys_concat, map_fst_setKey]
    split
    · exact ih
    · next hnew => exact List.concat_eq_append ▸ ih.concat hnew

/-- Each key holds the value that was set last. -/
theorem lookup_setKeys (settings : List (String × String)) (name : String) :
    (setKeys settings).lookup name = settings.reverse.lookup name := by
  induction settings using List.reverseRecOn with
  | nil => rfl
  | append_singleton settings setting ih =>
    obtain ⟨key, value⟩ := setting
    rw [setKeys_concat, lookup_setKey, ih, List.reverse_append, List.reverse_singleton, List.singleton_append,
      lookup_cons_eq_ite]

/-! ### Attributes -/

/-- What a history sets for a node: names in lower case with their values, in order. -/
def settingsOf (n : NodeId) (history : List Edit) : List (String × String) :=
  history.filterMap fun e => match e with
    | .setAttribute m name value => if m = n then some (Text.lower name, value) else none
    | _ => none

/-- The settings of a node in a longer history are the earlier ones and then those of the last edit. -/
theorem settingsOf_concat (n : NodeId) (past : List Edit) (e : Edit) :
    settingsOf n (past ++ [e]) = settingsOf n past ++ settingsOf n [e] := List.filterMap_append

/-- The names that a history sets are in lower case. -/
theorem exists_lower_of_mem_settingsOf {history : List Edit} {setting : String × String}
    (h : setting ∈ settingsOf n history) : ∃ name, setting.1 = Text.lower name := by
  obtain ⟨e, -, he⟩ := List.mem_filterMap.1 h
  cases e with
  | setAttribute m name value =>
    dsimp only at he
    split at he
    · cases he
      exact ⟨name, rfl⟩
    · cases he
  | _ => cases he

/-- A history sets nothing for nodes that do not exist yet, and settles the attributes of the elements. -/
structure Settles (history : List Edit) (d : Document) : Prop where
  fresh : ∀ n, d.size ≤ n → settingsOf n history = []
  attributes : ∀ n, d.isElement n = true → d.attributes n = setKeys (settingsOf n history)

/-- Being an element depends on the content alone. -/
theorem isElement_congr (h : d'.content? n = d.content? n) : d'.isElement n = d.isElement n := by
  rw [isElement, isElement, localName?, localName?, h]

/-- The attributes depend on the content alone. -/
theorem attributes_congr (h : d'.content? n = d.content? n) : d'.attributes n = d.attributes n := by
  rw [attributes, attributes, h]

namespace Settles

variable {past : List Edit} {e : Edit}

/-- An edit that sets no attribute and makes no node. -/
theorem of_content (h : Settles past d) (he : ∀ n, settingsOf n [e] = []) (hsize : d'.size = d.size)
    (hcontent : ∀ n, d'.content? n = d.content? n) : Settles (past ++ [e]) d' where
  fresh n hn := by
    rw [settingsOf_concat, he, List.append_nil]
    exact h.fresh n (hsize ▸ hn)
  attributes n hn := by
    rw [isElement_congr (hcontent n)] at hn
    rw [settingsOf_concat, he, List.append_nil, attributes_congr (hcontent n)]
    exact h.attributes n hn

/-- A new node has no attributes. -/
theorem add (h : Settles past d) (he : ∀ n, settingsOf n [e] = []) {content : Content}
    (hbare : ∀ tag attributes, content = .element tag attributes → attributes = []) :
    Settles (past ++ [e]) (d.add content) where
  fresh n hn := by
    rw [Document.add, size, Forest.size_push] at hn
    rw [settingsOf_concat, he, List.append_nil]
    exact h.fresh n (Nat.le_of_succ_le hn)
  attributes n hn := by
    rw [settingsOf_concat, he, List.append_nil]
    by_cases hnew : n = d.size
    · have hcontent : (d.add content).content? n = some content := by rw [content?_add, if_pos hnew]
      rw [h.fresh n (Nat.le_of_eq hnew.symm)]
      cases content with
      | element tag attributes =>
        rw [Document.attributes, hcontent]
        exact hbare tag attributes rfl
      | _ => simp [Document.attributes, hcontent, setKeys]
    · have hcontent : (d.add content).content? n = d.content? n := by rw [content?_add, if_neg hnew]
      rw [isElement_congr hcontent] at hn
      rw [attributes_congr hcontent]
      exact h.attributes n hn

/-- Setting an attribute keeps the attributes in step with the history that set them. -/
theorem setAttribute (h : Settles past d) {m : NodeId} (hm : m < d.size) (name value : String) :
    Settles (past ++ [.setAttribute m name value]) (d.setAttribute m name value) where
  fresh n hn := by
    have hsize : d.size ≤ n := by
      rw [Document.setAttribute, size, Forest.modifyValue, Forest.size_modify] at hn
      exact hn
    have hne : ¬m = n := fun heq => Nat.not_lt.2 hsize (heq ▸ hm)
    rw [settingsOf_concat, h.fresh n hsize]
    simp [settingsOf, hne]
  attributes n hn := by
    have hcontent := content?_setAttribute d m name value n
    rw [settingsOf_concat]
    by_cases hmn : m = n
    · subst hmn
      rw [if_pos rfl] at hcontent
      have hsettings : settingsOf m [.setAttribute m name value] = [(Text.lower name, value)] := by
        simp [settingsOf]
      have helement : d.isElement m = true := by
        rw [isElement, localName?, hcontent] at hn
        rw [isElement, localName?]
        cases hold : d.content? m with
        | none => simp [hold] at hn
        | some content => cases content <;> simp [hold] at hn ⊢
      obtain ⟨tag, htag⟩ := Option.isSome_iff_exists.1 helement
      obtain ⟨attributes, hold⟩ := localName?_eq_some_iff.1 htag
      have hattributes := h.attributes m helement
      rw [Document.attributes, hold] at hattributes
      rw [hsettings, setKeys_concat, ← hattributes, Document.attributes, hcontent, hold]
      rfl
    · rw [if_neg hmn] at hcontent
      have hsettings : settingsOf n [.setAttribute m name value] = [] := by simp [settingsOf, hmn]
      rw [isElement_congr hcontent] at hn
      rw [hsettings, List.append_nil, attributes_congr hcontent]
      exact h.attributes n hn

/-- Every edit of existing nodes keeps the attributes settled. -/
theorem edit (h : Settles past d) (he : ∀ n ∈ e.nodes, n < d.size) : Settles (past ++ [e]) (d.edit e) := by
  cases e with
  | element tag => exact h.add (fun _ => rfl) fun _ _ heq => by cases heq; rfl
  | text text => exact h.add (fun _ => rfl) nofun
  | comment text => exact h.add (fun _ => rfl) nofun
  | setAttribute m name value => exact h.setAttribute (he m (by simp [Edit.nodes])) name value
  | detach m => exact h.of_content (fun _ => rfl) (Forest.size_detach _ m) fun n => Forest.value?_detach _ m n
  | append p c =>
    rw [Document.edit, Document.append]
    split
    · next d' hok =>
      split at hok
      · cases hok
      split at hok
      · cases hok
      · cases hok
        exact h.of_content (fun _ => rfl) (by simp [size]) fun n => by simp [content?]
    · exact h.of_content (fun _ => rfl) rfl fun _ => rfl

end Settles

/-- The attributes of a node are those that its history has set. -/
theorem settles_edits {history : List Edit} (h : empty.Possible history) :
    Settles history (empty.edits history) := by
  refine history_induction (P := Settles) ⟨fun _ _ => rfl, fun n hn => ?_⟩ (fun past d e _ he hpast => hpast.edit he) h
  obtain ⟨tag, htag⟩ := Option.isSome_iff_exists.1 hn
  obtain ⟨attributes, hcontent⟩ := localName?_eq_some_iff.1 htag
  rw [content?_empty] at hcontent
  split at hcontent <;> simp at hcontent

/-! ### Consistency -/

/-- The links of a document form a forest that appends keep, and its attributes are the ones that a history sets. -/
structure Consistent (history : List Edit) (d : Document) : Prop where
  acyclic : ∀ n, ¬d.Above n n
  listed : ∀ n p, d.parent? n = some p → (d.nodes.children p).count n = 1 ∧ ∀ q, n ∈ d.nodes.children q → q = p
  unlisted : ∀ n, d.parent? n = none →
    (∀ q, n ∉ d.nodes.children q) ∧ d.nodes.preceding n = [] ∧ d.nodes.following n = []
  siblings : ∀ n p, d.parent? n = some p →
    d.nodes.children p = (d.nodes.preceding n).reverse ++ n :: d.nodes.following n
  refused : ∀ p c e, d.append p c = .error e ↔
    c = p ∧ e = ⟨p, c, .itself⟩ ∨ c ≠ p ∧ d.Above c p ∧ e = ⟨p, c, .descendant⟩
  unchanged : ∀ p c, c = p ∨ d.Above c p → d.edit (.append p c) = d
  moved : ∀ p < d.size, ∀ c < d.size, ¬(c = p ∨ d.Above c p) → Moved d (d.edit (.append p c)) p c
  tags_lower : ∀ n tag, d.localName? n = some tag → ∀ ch ∈ tag.toList, ch.isUpper = false
  names_lower : ∀ n, ∀ entry ∈ d.attributes n, ∀ ch ∈ entry.1.toList, ch.isUpper = false
  names_nodup : ∀ n, ((d.attributes n).map Prod.fst).Nodup
  names : ∀ n, d.isElement n = true →
    (d.attributes n).map Prod.fst = ((settingsOf n history).map Prod.fst).eraseDups
  value : ∀ n, d.isElement n = true → ∀ name,
    d.attribute? n (Text.lower name) = (settingsOf n history).reverse.lookup (Text.lower name)
  bare : ∀ n, d.isElement n = false → d.attributes n = []

/-- A text in lower case has no upper-case letter. -/
theorem isUpper_of_mem_lower {s : String} {ch : Char} (h : ch ∈ (Text.lower s).toList) : ch.isUpper = false := by
  rw [Text.toList_lower, List.mem_map] at h
  obtain ⟨ch', -, rfl⟩ := h
  exact Char.isUpper_toLower_eq_false ch'

/-- Only elements have attributes. -/
theorem attributes_of_not_isElement (hn : d.isElement n = false) : d.attributes n = [] := by
  rw [isElement, localName?] at hn
  rw [attributes]
  split at hn <;> simp_all

/-- What a history settles is in lower case, each name once. -/
theorem Settles.names {history : List Edit} (h : Settles history d) (n : NodeId) :
    (∀ entry ∈ d.attributes n, ∀ ch ∈ entry.1.toList, ch.isUpper = false) ∧ ((d.attributes n).map Prod.fst).Nodup := by
  cases hn : d.isElement n with
  | false => simp [attributes_of_not_isElement hn]
  | true =>
    rw [h.attributes n hn]
    refine ⟨fun entry hentry ch hch => ?_, nodup_map_fst_setKeys _⟩
    have hname := List.mem_map_of_mem (f := Prod.fst) hentry
    rw [map_fst_setKeys, List.mem_eraseDups, List.mem_map] at hname
    obtain ⟨setting, hsetting, heq⟩ := hname
    obtain ⟨name, hlower⟩ := exists_lower_of_mem_settingsOf hsetting
    rw [← heq, hlower] at hch
    exact isUpper_of_mem_lower hch

/-- After every history of edits of existing nodes, the document is consistent with the history. -/
theorem consistent_edits {history : List Edit} (h : empty.Possible history) :
    Consistent history (empty.edits history) := by
  have hd := (built_edits h).sound
  have hsettles := settles_edits h
  generalize empty.edits history = d at hd hsettles
  have hlisted : ∀ n q, n ∈ d.nodes.children q → d.parent? n = some q :=
    fun n q hn => (hd.wellFormed.parent_iff n q).2 hn
  exact {
    acyclic := hd.wellFormed.not_above_self
    listed := fun n p hp => ⟨List.count_eq_one_of_mem (hd.wellFormed.nodup p) ((hd.wellFormed.parent_iff n p).1 hp),
      fun q hq => Option.some.inj ((hlisted n q hq).symm.trans hp)⟩
    unlisted := fun n hn => by
      have hnone : d.nodes.parent? n = none := hn
      refine ⟨fun q hq => ?_, by rw [Forest.preceding, hnone], by rw [Forest.following, hnone]⟩
      rw [hlisted n q hq] at hn
      cases hn
    siblings := fun n p hp => hd.wellFormed.children_eq_siblings hp
    refused := fun p c e => hd.append_eq_error_iff
    unchanged := fun p c hcircle => hd.edit_append_of_above hcircle
    moved := fun p hp c hc hcircle => hd.moved_of_not_above hp hc hcircle
    tags_lower := fun n tag htag ch hch => isUpper_of_mem_lower (hd.lower_tag n tag htag ▸ hch)
    names_lower := fun n => (hsettles.names n).1
    names_nodup := fun n => (hsettles.names n).2
    names := fun n hn => by rw [hsettles.attributes n hn, map_fst_setKeys]
    value := fun n hn name => by rw [attribute?, hsettles.attributes n hn, lookup_setKeys]
    bare := fun n hn => attributes_of_not_isElement hn }

/-- A list whose first item becomes the last one, after the list could not be put below it; two of the three settings
are of one attribute. -/
def listHistory : List Edit :=
  [.element "UL", .append 0 1, .element "li", .element "Li", .append 1 2, .append 1 3, .setAttribute 2 "Class" "old",
    .setAttribute 2 "id" "first", .setAttribute 2 "CLASS" "new", .append 2 1, .append 1 2]

/-- In the history of the list one item is moved in front of the other and its class is set twice. -/
theorem consistent_edits_list :
    empty.Possible listHistory ∧ (empty.edits listHistory).nodes.children 1 = [3, 2] ∧
      (empty.edits listHistory).attributes 2 = [("class", "new"), ("id", "first")] ∧
      Consistent listHistory (empty.edits listHistory) :=
  ⟨by decide, by decide, by decide, consistent_edits (by decide)⟩

end ElementLocator.Document
