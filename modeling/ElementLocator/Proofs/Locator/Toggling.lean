import ElementLocator.Proofs.Locator.Refinement

/-!
# Toggling the values of a descriptor

A descriptor is an ordered set of pairs of a name and a value. A toggle that is accepted puts one pair in or takes it
out and leaves all other pairs and their order alone; names and values that are new go to the end, and the answer tells
whether anything changed. What is in the set stays admissible: the names are allowed and those of attributes that the
node has, and the values are offered by the node.
-/

namespace ElementLocator.Locator

variable {d : Document} {config : Config} {x x' : Descriptor} {name value key : String} {included changed : Bool}
  {attributes : AttributeValues}

/-! ### Order -/

/-- Of the old items those that are still there stand first, in their old order, and at most one new item follows. -/
def Continues (old new : List String) : Prop :=
  ∃ added : List String, new = old.filter (· ∈ new) ++ added ∧ added.length ≤ 1 ∧ ∀ a ∈ added, a ∉ old

namespace Continues

/-- Every list goes on from itself. -/
theorem refl (items : List String) : Continues items items :=
  ⟨[], by simpa using (List.filter_eq_self.2 fun a ha => by simpa using ha).symm, by simp, nofun⟩

/-- A list with one more item at its end goes on from the list without it. -/
theorem concat {items : List String} {a : String} (ha : a ∉ items) : Continues items (items ++ [a]) := by
  refine ⟨[a], ?_, by simp, by simpa using ha⟩
  rw [List.filter_eq_self.2 fun b hb => by simp [hb]]

/-- What is left of a list goes on from it. -/
theorem filter (p : String → Bool) (items : List String) : Continues items (items.filter p) := by
  refine ⟨[], ?_, by simp, nofun⟩
  rw [List.append_nil]
  exact List.filter_congr fun b hb => by simp [hb]

end Continues

namespace AttributeValues

/-! ### Adding and removing a value -/

/-- The values under a name. -/
def under (attributes : AttributeValues) (name : String) : List String := (attributes.lookup name).getD []

/-- The values under a name are those of its first entry. -/
theorem under_cons (key : String) (values : List String) (rest : AttributeValues) (name : String) :
    under ((key, values) :: rest) name = if name = key then values else rest.under name := by
  by_cases hname : name = key
  · simp [under, hname]
  · rw [if_neg hname, under, List.lookup_cons, beq_false_of_ne hname, under]

/-- A name that does not stand there has no values. -/
theorem under_of_not_mem (h : name ∉ attributes.map Prod.fst) : attributes.under name = [] := by
  induction attributes with
  | nil => rfl
  | cons first rest ih =>
    obtain ⟨key, values⟩ := first
    rw [List.map_cons, List.mem_cons, not_or] at h
    rw [under_cons, if_neg h.1, ih h.2]

/-- Adding a value puts it at the end of those under its name, unless it is there. -/
theorem under_add (name value key : String) (attributes : AttributeValues) :
    (add name value attributes).under key =
      if key = name ∧ value ∉ attributes.under name then attributes.under name ++ [value] else attributes.under key := by
  induction attributes with
  | nil =>
    rw [add, under_cons]
    by_cases hkey : key = name <;> simp [hkey, under]
  | cons first rest ih =>
    obtain ⟨first, values⟩ := first
    rw [add]
    by_cases hfirst : first = name
    · subst hfirst
      by_cases hkey : key = first <;> by_cases hvalue : value ∈ values <;> simp [under_cons, hkey, hvalue]
    · rw [if_neg hfirst, under_cons, under_cons, under_cons, ih, if_neg (Ne.symm hfirst)]
      by_cases hkey : key = first
      · simp [hkey, hfirst]
      · simp [hkey]

/-- Removing a value takes it away under its name and nowhere else. The name stands there only once, so nothing is left
under it when it goes. -/
theorem under_remove (h : attributes.Distinct) (name value key : String) :
    (remove name value attributes).under key =
      if key = name then (attributes.under name).filter (· != value) else attributes.under key := by
  induction attributes with
  | nil => simp [remove, under]
  | cons first rest ih =>
    obtain ⟨first, values⟩ := first
    obtain ⟨hnot, hrest⟩ := List.nodup_cons.1 h
    rw [remove]
    by_cases hfirst : first = name
    · subst hfirst
      rw [if_pos rfl, under_cons, under_cons, if_pos rfl]
      dsimp only
      by_cases hkey : key = first
      · subst hkey
        rw [if_pos rfl]
        split
        · next hkept => rw [under_of_not_mem hnot, List.isEmpty_iff.1 hkept]
        · rw [under_cons, if_pos rfl]
      · rw [if_neg hkey, if_neg hkey]
        split
        · rfl
        · rw [under_cons, if_neg hkey]
    · rw [if_neg hfirst, under_cons, under_cons, under_cons, ih hrest, if_neg (Ne.symm hfirst)]
      by_cases hkey : key = first
      · simp [hkey, hfirst]
      · simp [hkey]

/-- Adding a value adds its name at the end, unless it is there. -/
theorem names_add (name value : String) (attributes : AttributeValues) :
    (add name value attributes).map Prod.fst =
      if name ∈ attributes.map Prod.fst then attributes.map Prod.fst else attributes.map Prod.fst ++ [name] := by
  induction attributes with
  | nil => rfl
  | cons first rest ih =>
    obtain ⟨first, values⟩ := first
    rw [add]
    by_cases hfirst : first = name
    · simp [hfirst]
    · rw [if_neg hfirst, List.map_cons, ih]
      by_cases hname : name ∈ rest.map Prod.fst <;> simp [hname, Ne.symm hfirst]

/-- Removing the last value of a name removes the name. -/
theorem names_remove (h : attributes.Distinct) (name value : String) :
    (remove name value attributes).map Prod.fst =
      if ((attributes.under name).filter (· != value)).isEmpty then (attributes.map Prod.fst).filter (· != name)
      else attributes.map Prod.fst := by
  induction attributes with
  | nil => rfl
  | cons first rest ih =>
    obtain ⟨first, values⟩ := first
    obtain ⟨hnot, hrest⟩ := List.nodup_cons.1 h
    rw [remove, under_cons]
    by_cases hfirst : first = name
    · subst hfirst
      rw [if_pos rfl, if_pos rfl]
      dsimp only
      split
      · rw [List.map_cons, List.filter_cons_of_neg (by simp), List.filter_bne_eq_self_of_not_mem hnot]
      · rfl
    · rw [if_neg hfirst, if_neg (Ne.symm hfirst), List.map_cons, ih hrest]
      split
      · rw [List.map_cons, List.filter_cons_of_pos (by simpa using hfirst)]
      · rfl

/-! ### Whether anything changes -/

/-- A toggle changes something unless the value is there already or, when taken back, is not. -/
theorem changes_eq (name value : String) (included : Bool) (attributes : AttributeValues) :
    attributes.changes name value included = (included != (attributes.under name).contains value) := by
  induction attributes with
  | nil => simp [changes, under]
  | cons first rest ih =>
    obtain ⟨first, values⟩ := first
    rw [changes, under_cons]
    by_cases hfirst : first = name
    · rw [if_pos hfirst, if_pos hfirst.symm]
      cases included with
      | true => simp
      | false =>
        by_cases hvalue : value ∈ values
        · have hlength : (values.filter (· != value)).length ≠ values.length := fun hlength => by
            simpa using List.length_filter_eq_length_iff.1 hlength value hvalue
          simp [hvalue, hlength]
        · simp [hvalue, List.filter_bne_eq_self_of_not_mem hvalue]
    · rw [if_neg hfirst, if_neg (Ne.symm hfirst), ih]

/-- Adding a value that is there changes nothing. -/
theorem add_eq_self (h : value ∈ attributes.under name) : add name value attributes = attributes := by
  induction attributes with
  | nil => cases h
  | cons first rest ih =>
    obtain ⟨first, values⟩ := first
    rw [under_cons] at h
    rw [add]
    by_cases hfirst : first = name
    · rw [if_pos hfirst.symm] at h
      rw [if_pos hfirst, if_pos h]
    · rw [if_neg (Ne.symm hfirst)] at h
      rw [if_neg hfirst, ih h]

/-- Removing a value that is not there changes nothing. -/
theorem remove_eq_self (hne : ∀ entry ∈ attributes, entry.2 ≠ []) (h : value ∉ attributes.under name) :
    remove name value attributes = attributes := by
  induction attributes with
  | nil => rfl
  | cons first rest ih =>
    obtain ⟨first, values⟩ := first
    obtain ⟨hvalues, hrest⟩ := List.forall_mem_cons.1 hne
    rw [under_cons] at h
    rw [remove]
    by_cases hfirst : first = name
    · rw [if_pos hfirst.symm] at h
      rw [if_pos hfirst, List.filter_bne_eq_self_of_not_mem h]
      simp [hvalues]
    · rw [if_neg (Ne.symm hfirst)] at h
      rw [if_neg hfirst, ih hrest h]

end AttributeValues

namespace Descriptor

/-! ### Admissible descriptors -/

/-- Names are allowed, stand once and in lower case, and are those of attributes that the node has; under each of them
stand values that the node offers, at least one and none twice, and under any other name than `class` just one. -/
structure Admissible (d : Document) (config : Config) (x : Descriptor) : Prop where
  distinct : (x.attributes.map Prod.fst).Nodup
  lower : ∀ entry ∈ x.attributes, Text.lower entry.1 = entry.1
  allowed : ∀ entry ∈ x.attributes, config.allows entry.1 = true
  present : ∀ entry ∈ x.attributes, d.hasAttribute x.node entry.1 = true
  nonempty : ∀ entry ∈ x.attributes, entry.2 ≠ []
  once : ∀ entry ∈ x.attributes, entry.2.Nodup
  offered : ∀ entry ∈ x.attributes, ∀ v ∈ entry.2, v ∈ candidateValues d x.node entry.1
  single : ∀ entry ∈ x.attributes, entry.1 ≠ "class" → ∃ v, entry.2 = [v]

/-- A descriptor without refinements is admissible. -/
theorem Admissible.of_nil (d : Document) (config : Config) (n : NodeId) : Admissible d config { node := n } :=
  ⟨List.nodup_nil, nofun, nofun, nofun, nofun, nofun, nofun, nofun⟩

/-- A toggle that is accepted keeps the descriptor admissible. -/
theorem Admissible.setIncluded (h : x.Admissible d config)
    (hset : x.setIncluded d config name value included = .ok x') : x'.Admissible d config := by
  obtain ⟨hallowed, hpresent, hvalue, hx'⟩ := Registry.descriptor_setIncluded_eq_ok_iff.1 hset
  have hnode : x'.node = x.node := by rw [hx']
  have hdistinct : x.attributes.Distinct := h.distinct
  have honce : x.attributes.Once := h.once
  have hname : ∀ entry ∈ x'.attributes, Text.lower entry.1 = entry.1 ∧ config.allows entry.1 = true ∧
      d.hasAttribute x'.node entry.1 = true ∧ entry.2 ≠ [] := by
    intro entry hmem
    rw [hnode]
    rcases entry_of_setIncluded hset hmem with hmem | ⟨hname, hne, -⟩
    · exact ⟨h.lower entry hmem, h.allowed entry hmem, h.present entry hmem, h.nonempty entry hmem⟩
    · rw [hname]
      exact ⟨Text.lower_lower name, hallowed, hpresent, hne⟩
  have hoffered : x'.Offered d := by
    intro entry hmem v hv
    rw [hnode]
    rcases entry_of_setIncluded hset hmem with hmem | ⟨hname, -, hvalues⟩
    · exact h.offered entry hmem v hv
    rcases hvalues v hv with ⟨-, rfl⟩ | ⟨old, hmem, hv⟩
    · rw [hname]
      exact hvalue
    · exact h.offered (entry.1, old) hmem v hv
  exact {
    distinct := hdistinct.setIncluded hset
    lower := fun entry hmem => (hname entry hmem).1
    allowed := fun entry hmem => (hname entry hmem).2.1
    present := fun entry hmem => (hname entry hmem).2.2.1
    nonempty := fun entry hmem => (hname entry hmem).2.2.2
    once := honce.setIncluded hset
    offered := hoffered
    single := fun entry hmem hclass => hoffered.exists_eq_singleton hmem (hname entry hmem).1 hclass
      (hname entry hmem).2.2.2 (honce.setIncluded hset entry hmem) }

/-! ### What a toggle does -/

/-- One pair is put in or taken out, and all others stay. The names, and the values under each name, go on from the old
ones. The answer tells whether the descriptor is another one than before. -/
structure Altered (x : Descriptor) (name value : String) (included changed : Bool) (x' : Descriptor) : Prop where
  node : x'.node = x.node
  included : x'.includes name value = included
  others : ∀ key v, (key, v) ≠ (name, value) → x'.includes key v = x.includes key v
  names : Continues (x.attributes.map Prod.fst) (x'.attributes.map Prod.fst)
  values : ∀ key, Continues (x.values key) (x'.values key)
  changed : changed = true ↔ x' ≠ x

/-- A descriptor includes a value if it is under the name. -/
theorem includes_eq (x : Descriptor) (name value : String) :
    x.includes name value = (x.attributes.under name).contains value := rfl

/-- A toggle to what the descriptor says already leaves it as it is. -/
theorem Admissible.eq_self (h : x.Admissible d config)
    (hset : x.setIncluded d config name value included = .ok x')
    (hsame : x.includes (Text.lower name) value = included) : x' = x := by
  obtain ⟨-, -, -, rfl⟩ := Registry.descriptor_setIncluded_eq_ok_iff.1 hset
  rw [includes_eq] at hsame
  cases included with
  | true =>
    rw [if_pos rfl, AttributeValues.add_eq_self (List.contains_iff_mem.1 hsame)]
  | false =>
    have hnot : value ∉ x.attributes.under (Text.lower name) := fun hmem => by
      rw [List.contains_iff_mem.2 hmem] at hsame
      cases hsame
    rw [if_neg Bool.false_ne_true, AttributeValues.remove_eq_self h.nonempty hnot]

/-- The values under each name after a toggle. -/
theorem Admissible.values_eq (h : x.Admissible d config)
    (hset : x.setIncluded d config name value included = .ok x') (key : String) :
    x'.values key = if key = Text.lower name then
        if included then
          if value ∈ x.values key then x.values key else x.values key ++ [value]
        else (x.values key).filter (· != value)
      else x.values key := by
  obtain ⟨-, -, -, rfl⟩ := Registry.descriptor_setIncluded_eq_ok_iff.1 hset
  have hvalues : ∀ attributes : AttributeValues, Descriptor.values ⟨x.node, attributes⟩ key = attributes.under key :=
    fun _ => rfl
  have hold : x.values key = x.attributes.under key := rfl
  rw [hvalues, hold]
  cases included with
  | true =>
    rw [if_pos rfl, if_pos rfl, AttributeValues.under_add]
    by_cases hkey : key = Text.lower name
    · by_cases hmem : value ∈ x.attributes.under (Text.lower name) <;> simp [hkey, hmem]
    · simp [hkey]
  | false =>
    rw [if_neg Bool.false_ne_true, if_neg Bool.false_ne_true, AttributeValues.under_remove h.distinct]
    by_cases hkey : key = Text.lower name
    · simp [hkey]
    · simp [hkey]

/-- After a toggle the pair is included exactly if the toggle says so. -/
theorem Admissible.includes_toggled (h : x.Admissible d config)
    (hset : x.setIncluded d config name value included = .ok x') : x'.includes (Text.lower name) value = included := by
  rw [includes, h.values_eq hset, if_pos rfl]
  cases included with
  | true => by_cases hmem : value ∈ x.values (Text.lower name) <;> simp [hmem]
  | false => simp

/-- After a toggle all other pairs are included as before. -/
theorem Admissible.includes_other (h : x.Admissible d config)
    (hset : x.setIncluded d config name value included = .ok x') {key v : String}
    (hne : (key, v) ≠ (Text.lower name, value)) : x'.includes key v = x.includes key v := by
  rw [includes, includes, h.values_eq hset]
  split
  · next hkey =>
    have hv : v ≠ value := fun hv => hne (by rw [hkey, hv])
    split
    · split <;> simp [hv]
    · simp [hv]
  · rfl

/-- The names after a toggle go on from the names before. -/
theorem Admissible.names_continue (h : x.Admissible d config)
    (hset : x.setIncluded d config name value included = .ok x') :
    Continues (x.attributes.map Prod.fst) (x'.attributes.map Prod.fst) := by
  obtain ⟨-, -, -, rfl⟩ := Registry.descriptor_setIncluded_eq_ok_iff.1 hset
  cases included with
  | true =>
    rw [if_pos rfl, AttributeValues.names_add]
    split
    · exact .refl _
    · next hnew => exact .concat hnew
  | false =>
    rw [if_neg Bool.false_ne_true, AttributeValues.names_remove h.distinct]
    split
    · exact .filter _ _
    · exact .refl _

/-- The values under each name after a toggle go on from those before. -/
theorem Admissible.values_continue (h : x.Admissible d config)
    (hset : x.setIncluded d config name value included = .ok x') (key : String) :
    Continues (x.values key) (x'.values key) := by
  rw [h.values_eq hset]
  split
  · split
    · split
      · exact .refl _
      · next hnew => exact .concat hnew
    · exact .filter _ _
  · exact .refl _

/-- A toggle alters the descriptor in its own pair only. -/
theorem Admissible.altered (h : x.Admissible d config)
    (hset : x.setIncluded d config name value included = .ok x') :
    x.Altered (Text.lower name) value included (x.attributes.changes (Text.lower name) value included) x' where
  node := by
    obtain ⟨-, -, -, rfl⟩ := Registry.descriptor_setIncluded_eq_ok_iff.1 hset
    rfl
  included := h.includes_toggled hset
  others _ _ hne := h.includes_other hset hne
  names := h.names_continue hset
  values := h.values_continue hset
  changed := by
    rw [AttributeValues.changes_eq, ← includes_eq, bne_iff_ne]
    constructor
    · rintro hne rfl
      exact hne (h.includes_toggled hset).symm
    · exact fun hne heq => hne (h.eq_self hset heq.symm)

/-- Doing a toggle again changes nothing. -/
theorem Admissible.toggle_again (h : x.Admissible d config)
    (hset : x.setIncluded d config name value included = .ok x') :
    x'.toggle d config name value included = .ok (false, x') := by
  have hx' := h.setIncluded hset
  have haltered := h.altered hset
  obtain ⟨hallowed, hpresent, hvalue, -⟩ := Registry.descriptor_setIncluded_eq_ok_iff.1 hset
  rw [← haltered.node] at hpresent hvalue
  have hagain : x'.setIncluded d config name value included = .ok _ :=
    Registry.descriptor_setIncluded_eq_ok_iff.2 ⟨hallowed, hpresent, hvalue, rfl⟩
  refine Registry.descriptor_toggle_eq_ok_iff.2 ⟨?_, ?_⟩
  · rw [hagain, hx'.eq_self hagain haltered.included]
  · rw [AttributeValues.changes_eq, ← includes_eq, haltered.included, bne_self_eq_false]

/-! ### Sequences of toggles -/

/-- A name, a value, and whether the value is chosen or taken back. -/
structure Toggle where
  name : String
  value : String
  included : Bool
  deriving Repr, DecidableEq

/-- The descriptor after a toggle that may be refused. -/
def after (d : Document) (config : Config) (x : Descriptor) (t : Toggle) : Descriptor :=
  match x.toggle d config t.name t.value t.included with
  | .ok (_, x') => x'
  | .error _ => x

/-- The descriptor of a node after toggles, beginning without values. -/
def ofToggles (d : Document) (config : Config) (n : NodeId) (toggles : List Toggle) : Descriptor :=
  toggles.foldl (after d config) { node := n }

/-- How a toggle is answered: it is refused and nothing changes, or it alters the descriptor and would change nothing if
it were done again. -/
def Answers (d : Document) (config : Config) (x : Descriptor) (t : Toggle) : Prop :=
  (∃ e, x.toggle d config t.name t.value t.included = .error e ∧ x.after d config t = x) ∨
    ∃ changed x', x.toggle d config t.name t.value t.included = .ok (changed, x') ∧ x.after d config t = x' ∧
      x.Altered (Text.lower t.name) t.value t.included changed x' ∧
      x'.toggle d config t.name t.value t.included = .ok (false, x')

/-- A toggle of an admissible descriptor answers as it should: refused without an effect, or altered once. -/
theorem Admissible.answers (h : x.Admissible d config) (t : Toggle) : x.Answers d config t := by
  cases htoggle : x.toggle d config t.name t.value t.included with
  | error e => exact .inl ⟨e, htoggle, by rw [after, htoggle]⟩
  | ok result =>
    obtain ⟨changed, x'⟩ := result
    obtain ⟨hset, hchanged⟩ := Registry.descriptor_toggle_eq_ok_iff.1 htoggle
    exact .inr ⟨changed, x', htoggle, by rw [after, htoggle], hchanged ▸ h.altered hset, h.toggle_again hset⟩

/-- A toggle keeps the node of a descriptor, and it keeps the descriptor admissible. -/
theorem Admissible.after (h : x.Admissible d config) (t : Toggle) :
    (x.after d config t).node = x.node ∧ (x.after d config t).Admissible d config := by
  rw [Descriptor.after]
  split
  · next changed x' htoggle =>
    obtain ⟨hset, -⟩ := Registry.descriptor_toggle_eq_ok_iff.1 htoggle
    exact ⟨(h.altered hset).node, h.setIncluded hset⟩
  · exact ⟨rfl, h⟩

/-- After any toggles of a descriptor that began without values, it is admissible, and every further toggle is
answered. -/
theorem admissible_toggles (d : Document) (config : Config) (n : NodeId) (toggles : List Toggle) :
    (ofToggles d config n toggles).node = n ∧ (ofToggles d config n toggles).Admissible d config ∧
      ∀ t, (ofToggles d config n toggles).Answers d config t := by
  have hrun : (ofToggles d config n toggles).node = n ∧ (ofToggles d config n toggles).Admissible d config := by
    induction toggles using List.reverseRecOn with
    | nil => exact ⟨rfl, .of_nil d config n⟩
    | append_singleton toggles t ih =>
      rw [ofToggles, List.foldl_concat, ← ofToggles]
      obtain ⟨hnode, hadmissible⟩ := ih.2.after t
      exact ⟨hnode.trans ih.1, hadmissible⟩
  exact ⟨hrun.1, hrun.2, hrun.2.answers⟩

end Descriptor

end ElementLocator.Locator
