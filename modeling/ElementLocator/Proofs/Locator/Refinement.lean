import ElementLocator.Proofs.Locator.Run
import ElementLocator.Proofs.Text.PlainName
import ElementLocator.Proofs.Text.Words

/-!
# What refines an entry

The values that a descriptor holds after any operations were all chosen: each of them was toggled on under a name
that the settings allow, and it is one that the node offers. No name is left without values, no name stands twice, and
no value stands twice under a name.
-/

namespace ElementLocator.Locator

variable {d : Document} {config : Config} {ops : List Operation} {n : NodeId} {name value : String}
  {attributes : AttributeValues} {entry : String × List String} {x : Descriptor}

/-! ### Offered values -/

/-- An attribute other than `class` offers its whole value, and `class` offers its words; no offer is empty. -/
theorem mem_candidateValues (hlower : Text.lower name = name) (h : value ∈ candidateValues d n name) :
    value ≠ "" ∧ (name = "class" ∧ value ∈ d.classList n ∨ name ≠ "class" ∧ d.attribute? n name = some value) := by
  have hclass : Text.equalIgnoringCase name "class" = true ↔ name = "class" := by
    have hlowerClass : Text.lower "class" = "class" := by decide
    rw [Text.equalIgnoringCase_iff, hlower, hlowerClass]
  unfold candidateValues at h
  split at h
  · next hname => exact ⟨(Text.mem_words (List.mem_eraseDups.1 h)).1, .inl ⟨hclass.1 hname, h⟩⟩
  · next hname =>
    rw [Option.mem_toList, Option.filter_eq_some_iff, hlower] at h
    exact ⟨by simpa using h.2, .inr ⟨fun heq => hname (hclass.2 heq), h.1⟩⟩

/-- The values are among those that the node offers. -/
def Descriptor.Offered (d : Document) (descriptor : Descriptor) : Prop :=
  ∀ entry ∈ descriptor.attributes, ∀ v ∈ entry.2, v ∈ candidateValues d descriptor.node entry.1

/-! ### Changing one value -/

/-- An entry after a value was added is an old one, or it has that value beside old values under the same name. -/
theorem AttributeValues.mem_add (h : entry ∈ AttributeValues.add name value attributes) :
    entry ∈ attributes ∨ entry.1 = name ∧ entry.2 ≠ [] ∧
      ∀ v ∈ entry.2, v = value ∨ ∃ old, (name, old) ∈ attributes ∧ v ∈ old := by
  induction attributes with
  | nil =>
    rw [add, List.mem_singleton] at h
    subst h
    exact .inr ⟨rfl, by simp, fun v hv => .inl (List.mem_singleton.1 hv)⟩
  | cons first rest ih =>
    obtain ⟨key, values⟩ := first
    rw [add] at h
    split at h
    · next hkey =>
      subst hkey
      rcases List.mem_cons.1 h with rfl | h
      · refine .inr ⟨rfl, ?_, ?_⟩
        · dsimp only
          split
          · next hmem => exact List.ne_nil_of_mem hmem
          · simp
        · dsimp only
          intro v hv
          split at hv
          · exact .inr ⟨values, List.mem_cons_self, hv⟩
          · rcases List.mem_append.1 hv with hv | hv
            · exact .inr ⟨values, List.mem_cons_self, hv⟩
            · exact .inl (List.mem_singleton.1 hv)
      · exact .inl (List.mem_cons_of_mem _ h)
    · rcases List.mem_cons.1 h with rfl | h
      · exact .inl List.mem_cons_self
      · rcases ih h with h | ⟨hname, hne, hvalues⟩
        · exact .inl (List.mem_cons_of_mem _ h)
        · refine .inr ⟨hname, hne, fun v hv => (hvalues v hv).imp_right ?_⟩
          intro hmore
          obtain ⟨old, hold, hv⟩ := hmore
          exact ⟨old, List.mem_cons_of_mem _ hold, hv⟩

/-- An entry after a value was removed is an old one, or it has some of the old values under the name. -/
theorem AttributeValues.mem_remove (h : entry ∈ AttributeValues.remove name value attributes) :
    entry ∈ attributes ∨
      entry.1 = name ∧ entry.2 ≠ [] ∧ ∃ old, (name, old) ∈ attributes ∧ ∀ v ∈ entry.2, v ∈ old := by
  induction attributes with
  | nil => cases h
  | cons first rest ih =>
    obtain ⟨key, values⟩ := first
    rw [remove] at h
    split at h
    · next hkey =>
      subst hkey
      dsimp only at h
      split at h
      · exact .inl (List.mem_cons_of_mem _ h)
      · next hkept =>
        rcases List.mem_cons.1 h with rfl | h
        · exact .inr ⟨rfl, by simpa using hkept, values, List.mem_cons_self, fun v hv => (List.mem_filter.1 hv).1⟩
        · exact .inl (List.mem_cons_of_mem _ h)
    · rcases List.mem_cons.1 h with rfl | h
      · exact .inl List.mem_cons_self
      · rcases ih h with h | ⟨hname, hne, old, hold, hvalues⟩
        · exact .inl (List.mem_cons_of_mem _ h)
        · exact .inr ⟨hname, hne, old, List.mem_cons_of_mem _ hold, hvalues⟩

/-! ### Chosen values -/

/-- The value was toggled on under the name, which was given in any letter case. -/
def Chosen (ops : List Operation) (name value : String) : Prop :=
  ∃ scope index written, Operation.toggle scope index written value true ∈ ops ∧ Text.lower written = name

/-- Every value of a descriptor was chosen, is allowed, and is one that the node offers. -/
structure Descriptor.Grounded (d : Document) (config : Config) (ops : List Operation) (descriptor : Descriptor) :
    Prop where
  values_ne_nil : ∀ entry ∈ descriptor.attributes, entry.2 ≠ []
  allowed : ∀ entry ∈ descriptor.attributes, ∀ v ∈ entry.2, config.allows entry.1 = true
  offered : ∀ entry ∈ descriptor.attributes, ∀ v ∈ entry.2, v ∈ candidateValues d descriptor.node entry.1
  chosen : ∀ entry ∈ descriptor.attributes, ∀ v ∈ entry.2, Chosen ops entry.1 v

/-- A descriptor without refinements is grounded. -/
theorem Descriptor.Grounded.of_nil (n : NodeId) : Descriptor.Grounded d config ops { node := n } :=
  ⟨nofun, nofun, nofun, nofun⟩

/-- Every entry after a toggle is an old one, or its values are old ones under the name and perhaps the value that was
toggled on. -/
theorem Descriptor.entry_of_setIncluded {descriptor changed : Descriptor} {included : Bool}
    (hset : descriptor.setIncluded d config name value included = .ok changed) (hmem : entry ∈ changed.attributes) :
    entry ∈ descriptor.attributes ∨ entry.1 = Text.lower name ∧ entry.2 ≠ [] ∧ ∀ v ∈ entry.2,
      (included = true ∧ v = value) ∨ ∃ old, (entry.1, old) ∈ descriptor.attributes ∧ v ∈ old := by
  obtain ⟨-, -, -, hattributes⟩ := Registry.descriptor_setIncluded_eq_ok hset
  rw [hattributes] at hmem
  cases included with
  | true =>
    refine (AttributeValues.mem_add hmem).imp_right ?_
    intro hchanged
    obtain ⟨hname, hne, hvalues⟩ := hchanged
    exact ⟨hname, hne, fun v hv => (hvalues v hv).imp (fun heq => ⟨rfl, heq⟩) fun hold => hname ▸ hold⟩
  | false =>
    refine (AttributeValues.mem_remove hmem).imp_right ?_
    intro hchanged
    obtain ⟨hname, hne, old, hold, hvalues⟩ := hchanged
    exact ⟨hname, hne, fun v hv => .inr ⟨old, hname ▸ hold, hvalues v hv⟩⟩

/-- A toggle keeps the values grounded. -/
theorem Descriptor.Grounded.setIncluded {descriptor changed : Descriptor} {scope : Scope} {index : Nat}
    {included : Bool} (h : descriptor.Grounded d config ops)
    (hop : Operation.toggle scope index name value included ∈ ops)
    (hset : descriptor.setIncluded d config name value included = .ok changed) :
    changed.Grounded d config ops := by
  obtain ⟨hallowed, hoffered, hnode, -⟩ := Registry.descriptor_setIncluded_eq_ok hset
  have hvalue : ∀ entry ∈ changed.attributes, ∀ v ∈ entry.2, config.allows entry.1 = true ∧
      v ∈ candidateValues d changed.node entry.1 ∧ Chosen ops entry.1 v := by
    intro entry hmem v hv
    have hold : ∀ old, (entry.1, old) ∈ descriptor.attributes → v ∈ old → config.allows entry.1 = true ∧
        v ∈ candidateValues d changed.node entry.1 ∧ Chosen ops entry.1 v := by
      intro old hmem hv
      rw [hnode]
      exact ⟨h.allowed (entry.1, old) hmem v hv, h.offered (entry.1, old) hmem v hv,
        h.chosen (entry.1, old) hmem v hv⟩
    rcases Descriptor.entry_of_setIncluded hset hmem with hmem | ⟨hname, -, hvalues⟩
    · exact hold entry.2 hmem hv
    · rcases hvalues v hv with ⟨rfl, rfl⟩ | ⟨old, hmem, hv⟩
      · rw [hname, hnode]
        exact ⟨hallowed, hoffered, scope, index, name, hop, rfl⟩
      · exact hold old hmem hv
  refine ⟨fun entry hmem => ?_, fun entry hmem v hv => (hvalue entry hmem v hv).1,
    fun entry hmem v hv => (hvalue entry hmem v hv).2.1, fun entry hmem v hv => (hvalue entry hmem v hv).2.2⟩
  rcases Descriptor.entry_of_setIncluded hset hmem with hmem | ⟨-, hne, -⟩
  · exact h.values_ne_nil entry hmem
  · exact hne

/-! ### Names -/

/-- No name stands twice. -/
def AttributeValues.Distinct (attributes : AttributeValues) : Prop := (attributes.map Prod.fst).Nodup

/-- Adding a value adds no other name than its own. -/
theorem AttributeValues.mem_names_add {key : String} (h : key ∈ (add name value attributes).map Prod.fst) :
    key = name ∨ key ∈ attributes.map Prod.fst := by
  obtain ⟨entry, hentry, rfl⟩ := List.mem_map.1 h
  rcases mem_add hentry with hold | ⟨hname, -⟩
  · exact .inr (List.mem_map_of_mem hold)
  · exact .inl hname

/-- Adding a value keeps the names distinct. -/
theorem AttributeValues.Distinct.add (h : attributes.Distinct) : (add name value attributes).Distinct := by
  induction attributes with
  | nil => exact List.nodup_singleton name
  | cons first rest ih =>
    obtain ⟨key, values⟩ := first
    obtain ⟨hkey, hrest⟩ := List.nodup_cons.1 h
    rw [AttributeValues.add]
    split
    · exact h
    · next hne =>
      refine List.nodup_cons.2 ⟨fun hmem => ?_, ih hrest⟩
      exact (mem_names_add hmem).elim hne hkey

/-- Removing a value adds no names. -/
theorem AttributeValues.names_remove_sublist (name value : String) (attributes : AttributeValues) :
    ((remove name value attributes).map Prod.fst).Sublist (attributes.map Prod.fst) := by
  induction attributes with
  | nil => exact List.Sublist.refl _
  | cons first rest ih =>
    obtain ⟨key, values⟩ := first
    rw [AttributeValues.remove]
    dsimp only
    split
    · split
      · exact List.sublist_cons_self key _
      · exact List.Sublist.refl _
    · exact ih.cons_cons key

/-- Removing a value keeps the names distinct. -/
theorem AttributeValues.Distinct.remove (h : attributes.Distinct) : (remove name value attributes).Distinct :=
  h.sublist (names_remove_sublist name value attributes)

/-- Including or excluding a value keeps the names distinct. -/
theorem AttributeValues.Distinct.setIncluded {descriptor changed : Descriptor} {included : Bool}
    (h : descriptor.attributes.Distinct)
    (hset : descriptor.setIncluded d config name value included = .ok changed) : changed.attributes.Distinct := by
  obtain ⟨-, -, -, hattributes⟩ := Registry.descriptor_setIncluded_eq_ok hset
  rw [hattributes]
  cases included with
  | true => exact h.add
  | false => exact h.remove

/-- The values under a name are found there, for no other entry has the name. -/
theorem AttributeValues.Distinct.lookup_eq_some_iff (h : attributes.Distinct) {values : List String} :
    attributes.lookup name = some values ↔ (name, values) ∈ attributes := by
  rw [List.lookup_eq_some_iff]
  constructor
  · rintro ⟨front, back, rfl, -⟩
    simp
  · intro hmem
    obtain ⟨front, back, rfl⟩ := List.append_of_mem hmem
    refine ⟨front, back, rfl, fun entry hentry => ?_⟩
    rw [Distinct, List.map_append, List.nodup_append] at h
    have hne := h.2.2 entry.1 (List.mem_map_of_mem hentry) name List.mem_cons_self
    simpa using hne.symm

/-- A descriptor includes a value exactly if it is listed under its name. -/
theorem Descriptor.includes_iff (h : x.attributes.Distinct) :
    x.includes name value = true ↔ ∃ values, (name, values) ∈ x.attributes ∧ value ∈ values := by
  rw [includes, values, List.contains_iff_mem]
  cases hlookup : x.attributes.lookup name with
  | none =>
    have hnone : ∀ values, (name, values) ∉ x.attributes := fun values hmem => by
      rw [h.lookup_eq_some_iff.2 hmem] at hlookup
      cases hlookup
    simp [hnone]
  | some values =>
    have hentry := h.lookup_eq_some_iff.1 hlookup
    constructor
    · exact fun hvalue => ⟨values, hentry, hvalue⟩
    · rintro ⟨others, hmem, hvalue⟩
      rw [← h.lookup_eq_some_iff, hlookup] at hmem
      rwa [Option.some.inj hmem]

/-! ### Values under a name -/

/-- No value stands twice under a name. -/
def AttributeValues.Once (attributes : AttributeValues) : Prop := ∀ entry ∈ attributes, entry.2.Nodup

/-- Adding a value keeps every value single. -/
theorem AttributeValues.Once.add (h : attributes.Once) : (add name value attributes).Once := by
  induction attributes with
  | nil => exact List.forall_mem_singleton.2 (List.nodup_singleton value)
  | cons first rest ih =>
    obtain ⟨hfirst, hrest⟩ := List.forall_mem_cons.1 h
    rw [AttributeValues.add]
    split
    · refine List.forall_mem_cons.2 ⟨?_, hrest⟩
      dsimp only
      split
      · exact hfirst
      · next hnew => exact List.nodup_append_comm.1 (List.nodup_cons.2 ⟨hnew, hfirst⟩)
    · exact List.forall_mem_cons.2 ⟨hfirst, ih hrest⟩

/-- Removing a value keeps every value single. -/
theorem AttributeValues.Once.remove (h : attributes.Once) : (remove name value attributes).Once := by
  induction attributes with
  | nil => exact h
  | cons first rest ih =>
    obtain ⟨hfirst, hrest⟩ := List.forall_mem_cons.1 h
    rw [AttributeValues.remove]
    dsimp only
    split
    · split
      · exact hrest
      · exact List.forall_mem_cons.2 ⟨hfirst.filter _, hrest⟩
    · exact List.forall_mem_cons.2 ⟨hfirst, ih hrest⟩

/-- Including or excluding a value keeps every value single. -/
theorem AttributeValues.Once.setIncluded {descriptor changed : Descriptor} {included : Bool}
    (h : descriptor.attributes.Once)
    (hset : descriptor.setIncluded d config name value included = .ok changed) : changed.attributes.Once := by
  obtain ⟨-, -, -, hattributes⟩ := Registry.descriptor_setIncluded_eq_ok hset
  rw [hattributes]
  cases included with
  | true => exact h.add
  | false => exact h.remove

/-- An attribute other than `class` offers one value at most. -/
theorem Descriptor.Offered.eq_of_ne_class (hoffered : x.Offered d) (hentry : entry ∈ x.attributes)
    (hlower : Text.lower entry.1 = entry.1) (hclass : entry.1 ≠ "class") {v w : String} (hv : v ∈ entry.2)
    (hw : w ∈ entry.2) : v = w := by
  have hvalue : ∀ u ∈ entry.2, d.attribute? x.node entry.1 = some u := by
    intro u hu
    obtain ⟨-, hmem | hother⟩ := mem_candidateValues hlower (hoffered entry hentry u hu)
    · exact absurd hmem.1 hclass
    · exact hother.2
  exact Option.some.inj ((hvalue v hv).symm.trans (hvalue w hw))

/-- So under any other name than `class` there is exactly one value, if values stand once and no name is left without
one. -/
theorem Descriptor.Offered.exists_eq_singleton (hoffered : x.Offered d) (hentry : entry ∈ x.attributes)
    (hlower : Text.lower entry.1 = entry.1) (hclass : entry.1 ≠ "class") (hne : entry.2 ≠ [])
    (honce : entry.2.Nodup) : ∃ v, entry.2 = [v] := by
  obtain ⟨v, more, hcons⟩ := List.exists_cons_of_ne_nil hne
  have hsame : ∀ w ∈ more, w = v := fun w hw =>
    hoffered.eq_of_ne_class hentry hlower hclass (hcons ▸ List.mem_cons_of_mem v hw) (hcons ▸ List.mem_cons_self)
  rw [hcons] at honce
  have hmore : more = [] := List.eq_nil_iff_forall_not_mem.2 fun w hw =>
    (List.nodup_cons.1 honce).1 (hsame w hw ▸ hw)
  exact ⟨v, by rw [hcons, hmore]⟩

/-! ### Every descriptor of a run -/

/-- The descriptors of a registry have a property if the old ones have it and those without values have it. -/
theorem Registry.forall_mem_insertAll {P : Descriptor → Prop} (hnew : ∀ n, P { node := n }) (nodes : List NodeId)
    {r : Registry} (hr : ∀ descriptor ∈ r.descriptors, P descriptor) :
    ∀ descriptor ∈ (r.insertAll nodes).2.descriptors, P descriptor := by
  induction nodes generalizing r with
  | nil => exact hr
  | cons n rest ih =>
    rw [insertAll]
    refine ih ?_
    unfold insert
    split
    · exact hr
    · intro descriptor hmem
      rcases List.mem_append.1 hmem with hmem | hmem
      · exact hr descriptor hmem
      · rw [List.mem_singleton.1 hmem]
        exact hnew n

/-- What holds of a descriptor without values and is kept by the toggles of a run holds of all descriptors after it. -/
theorem forall_descriptors_run {P : Descriptor → Prop} (d : Document) (config : Config) (ops : List Operation)
    (hnew : ∀ n, P { node := n })
    (htoggle : ∀ scope index name value included descriptor changed,
      Operation.toggle scope index name value included ∈ ops → P descriptor →
      descriptor.setIncluded d config name value included = .ok changed → P changed) :
    ∀ descriptor ∈ ((start d config).run ops).registry.descriptors, P descriptor := by
  refine run_induction (P := fun l _ => ∀ descriptor ∈ l.registry.descriptors, P descriptor) ops nofun ?_
  intro l picks op l' picks' hop hdocument hconfig h heffect
  cases heffect with
  | refused => exact h
  | rewritten => exact h
  | pickedMain => exact Registry.forall_mem_insertAll hnew _ nofun
  | pickedRelative =>
    exact Registry.forall_mem_insertAll hnew _ fun descriptor hmem => h descriptor (List.mem_of_mem_take hmem)
  | refined hget hset =>
    rw [hdocument, hconfig] at hset
    intro descriptor hmem
    rcases List.mem_or_eq_of_mem_set hmem with hmem | rfl
    · exact h descriptor hmem
    · exact htoggle _ _ _ _ _ _ _ hop (h _ (List.mem_of_getElem? hget)) hset

/-- After any operations, all values of all descriptors are grounded in them. -/
theorem grounded_run (d : Document) (config : Config) (ops : List Operation) :
    ∀ descriptor ∈ ((start d config).run ops).registry.descriptors, descriptor.Grounded d config ops :=
  forall_descriptors_run d config ops Descriptor.Grounded.of_nil
    fun _ _ _ _ _ _ _ hop hdescriptor hset => hdescriptor.setIncluded hop hset

/-- No descriptor has a name twice. -/
theorem distinct_run (d : Document) (config : Config) (ops : List Operation) :
    ∀ descriptor ∈ ((start d config).run ops).registry.descriptors, descriptor.attributes.Distinct :=
  forall_descriptors_run (P := fun descriptor => descriptor.attributes.Distinct) d config ops
    (fun _ => List.nodup_nil) fun _ _ _ _ _ _ _ _ hdistinct hset => hdistinct.setIncluded hset

/-- After any operations, no descriptor has a value twice. -/
theorem once_run (d : Document) (config : Config) (ops : List Operation) :
    ∀ descriptor ∈ ((start d config).run ops).registry.descriptors, descriptor.attributes.Once :=
  forall_descriptors_run (P := fun descriptor => descriptor.attributes.Once) d config ops (fun _ => nofun)
    fun _ _ _ _ _ _ _ _ honce hset => honce.setIncluded hset

end ElementLocator.Locator
