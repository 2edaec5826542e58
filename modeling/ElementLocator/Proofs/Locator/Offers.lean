import ElementLocator.Locator
import ElementLocator.Proofs.Locator.Registry

/-!
# What is offered is what is accepted

The listing of the attributes that can refine an entry goes through the attributes of the node and leaves out what is
not allowed or has no values; a toggle looks up one name and checks one value. Both come to the same pairs of a name in
lower case and a value, for every locator, and a toggle that is not accepted says which of the checks has failed.
-/

namespace ElementLocator.Locator

variable {d : Document} {config : Config} {n : NodeId} {l : Locator} {scope : Scope} {index : Nat}
  {name value : String} {included : Bool} {e : Error} {x : Descriptor}

/-! ### The listing -/

/-- A name is listed with the values that the node offers for it if it is allowed, present and has values. -/
theorem mem_availableAttributes_iff {values : List String} :
    (name, values) ∈ availableAttributes d n config ↔
      config.allows name = true ∧ d.hasAttribute n name = true ∧ values = candidateValues d n name ∧ values ≠ [] := by
  have hpresent : d.hasAttribute n name = true ↔ ∃ v, (name, v) ∈ d.attributes n := by
    rw [Document.hasAttribute, Document.attribute?, List.lookup_isSome_iff]
    simp
  rw [hpresent, availableAttributes, List.mem_filterMap]
  constructor
  · rintro ⟨⟨key, v⟩, hmem, hlisted⟩
    dsimp only at hlisted
    split at hlisted
    · next hguard =>
      cases hlisted
      exact ⟨hguard.1, ⟨v, hmem⟩, rfl, by simpa using hguard.2⟩
    · cases hlisted
  · rintro ⟨hallowed, ⟨v, hmem⟩, rfl, hne⟩
    refine ⟨(name, v), hmem, ?_⟩
    dsimp only
    rw [if_pos ⟨hallowed, by simpa using hne⟩]

/-- A value is offered exactly if its attribute is allowed and present and the value is a candidate of it. -/
theorem exists_listed_iff :
    (∃ values, (name, values) ∈ availableAttributes d n config ∧ value ∈ values) ↔
      config.allows name = true ∧ d.hasAttribute n name = true ∧ value ∈ candidateValues d n name := by
  simp only [mem_availableAttributes_iff]
  constructor
  · rintro ⟨values, ⟨hallowed, hpresent, rfl, -⟩, hvalue⟩
    exact ⟨hallowed, hpresent, hvalue⟩
  · rintro ⟨hallowed, hpresent, hvalue⟩
    exact ⟨_, ⟨hallowed, hpresent, rfl, List.ne_nil_of_mem hvalue⟩, hvalue⟩

/-- The offers of a place are those of the node that its descriptor stands for. -/
theorem available_eq_ok_iff {attributes : AttributeValues} :
    l.available scope index = .ok attributes ↔
      ∃ x, l.descriptor? scope index = some x ∧ attributes = availableAttributes l.document x.node l.config := by
  rw [available]
  cases l.descriptor? scope index with
  | none => simp
  | some x => simp [eq_comm]

/-- The listing fails only where there is no entry. -/
theorem available_eq_error_iff :
    l.available scope index = .error e ↔ l.descriptor? scope index = none ∧ e = .unknownEntry scope index := by
  rw [available]
  cases l.descriptor? scope index with
  | none => simp [eq_comm]
  | some x => simp

/-! ### The toggle -/

/-- A toggle at a place without an entry is refused. -/
theorem toggle_of_none (h : l.descriptor? scope index = none) :
    l.toggle scope index name value included = .error (.unknownEntry scope index) := by
  rw [descriptor?] at h
  rw [toggle]
  cases hhandle : (l.handles scope)[index]? with
  | none => rfl
  | some handle =>
    rw [hhandle, Option.bind_some] at h
    simp [Registry.setIncluded, h, bind, Except.bind]

/-- The toggle of an entry is the one of its descriptor, which stays in its place. -/
theorem toggle_of_some (h : l.descriptor? scope index = some x) (name value : String) (included : Bool) :
    ∃ handle, l.toggle scope index name value included =
      (x.toggle l.document l.config name value included).map fun answer =>
        (answer.1, { l with registry := l.registry.set handle answer.2 }) := by
  rw [descriptor?, Option.bind_eq_some_iff] at h
  obtain ⟨handle, hhandle, hget⟩ := h
  refine ⟨handle, ?_⟩
  rw [toggle, hhandle]
  dsimp only
  rw [Registry.setIncluded, hget]
  cases htoggle : x.toggle l.document l.config name value included <;>
    simp [htoggle, bind, Except.bind, Except.map]

/-- A toggle of a descriptor fails exactly if its inclusion does. -/
theorem descriptor_toggle_eq_error_iff :
    x.toggle d config name value included = .error e ↔ x.setIncluded d config name value included = .error e := by
  rw [Descriptor.toggle]
  cases x.setIncluded d config name value included <;> simp [bind, Except.bind]

/-- A toggle is refused where there is no entry, or where the descriptor of the entry refuses it. -/
theorem toggle_eq_error_iff :
    l.toggle scope index name value included = .error e ↔
      l.descriptor? scope index = none ∧ e = .unknownEntry scope index ∨
        ∃ x, l.descriptor? scope index = some x ∧
          x.setIncluded l.document l.config name value included = .error e := by
  cases hx : l.descriptor? scope index with
  | none => simp [toggle_of_none hx, eq_comm]
  | some x =>
    obtain ⟨handle, htoggle⟩ := toggle_of_some hx name value included
    rw [htoggle]
    simp only [reduceCtorEq, false_and, Option.some.injEq, exists_eq_left', false_or, ← descriptor_toggle_eq_error_iff]
    cases x.toggle l.document l.config name value included <;> simp [Except.map]

/-- A toggle is accepted where there is an entry whose attribute is allowed, present, and offers the value. -/
theorem exists_toggle_eq_ok_iff :
    (∃ answer, l.toggle scope index name value included = .ok answer) ↔
      ∃ x, l.descriptor? scope index = some x ∧ l.config.allows (Text.lower name) = true ∧
        l.document.hasAttribute x.node (Text.lower name) = true ∧
        value ∈ candidateValues l.document x.node (Text.lower name) := by
  cases hx : l.descriptor? scope index with
  | none => simp [toggle_of_none hx]
  | some x =>
    obtain ⟨handle, htoggle⟩ := toggle_of_some hx name value included
    rw [htoggle]
    simp only [Option.some.injEq, exists_eq_left']
    constructor
    · rintro ⟨answer, hanswer⟩
      cases hresult : x.toggle l.document l.config name value included with
      | error e =>
        rw [hresult] at hanswer
        cases hanswer
      | ok result =>
        obtain ⟨hset, -⟩ := Registry.descriptor_toggle_eq_ok_iff.1 hresult
        obtain ⟨hallowed, hpresent, hvalue, -⟩ := Registry.descriptor_setIncluded_eq_ok_iff.1 hset
        exact ⟨hallowed, hpresent, hvalue⟩
    · rintro ⟨hallowed, hpresent, hvalue⟩
      have hset : x.setIncluded l.document l.config name value included = .ok _ :=
        Registry.descriptor_setIncluded_eq_ok_iff.2 ⟨hallowed, hpresent, hvalue, rfl⟩
      rw [Registry.descriptor_toggle_eq_ok_iff.2 ⟨hset, rfl⟩]
      exact ⟨_, rfl⟩

/-! ### Agreement -/

/-- A toggle is accepted exactly if the listing of the entry has the name, in lower case, with the value. It is refused
for want of an entry exactly if the listing is, and because of the name exactly if that is not allowed or not present on
the node; there is no other reason to refuse it but the value. -/
structure Agrees (l : Locator) (scope : Scope) (index : Nat) (name value : String) (included : Bool) : Prop where
  accepted : (∃ answer, l.toggle scope index name value included = .ok answer) ↔
    ∃ attributes values, l.available scope index = .ok attributes ∧ (Text.lower name, values) ∈ attributes ∧
      value ∈ values
  unknown : l.toggle scope index name value included = .error (.unknownEntry scope index) ↔
    l.available scope index = .error (.unknownEntry scope index)
  notAllowed : l.toggle scope index name value included = .error (.attributeNotAllowed (Text.lower name)) ↔
    ∃ x, l.descriptor? scope index = some x ∧
      (l.config.allows (Text.lower name) = false ∨ l.document.hasAttribute x.node (Text.lower name) = false)
  refused : ∀ e, l.toggle scope index name value included = .error e →
    e = .unknownEntry scope index ∨ e = .attributeNotAllowed (Text.lower name) ∨
      e = .valueNotPresent (Text.lower name) value
  unlisted : ∀ e, l.available scope index = .error e → e = .unknownEntry scope index

/-- Listing and toggling agree on every entry, name and value. -/
theorem toggle_agrees_with_listing (l : Locator) (scope : Scope) (index : Nat) (name value : String) (included : Bool) :
    Agrees l scope index name value included where
  accepted := by
    rw [exists_toggle_eq_ok_iff]
    simp only [available_eq_ok_iff, ← exists_listed_iff]
    constructor
    · rintro ⟨x, hx, values, hmem, hvalue⟩
      exact ⟨_, values, ⟨x, hx, rfl⟩, hmem, hvalue⟩
    · rintro ⟨_, values, ⟨x, hx, rfl⟩, hmem, hvalue⟩
      exact ⟨x, hx, values, hmem, hvalue⟩
  unknown := by
    rw [toggle_eq_error_iff, available_eq_error_iff]
    simp [Registry.descriptor_setIncluded_eq_error_iff]
  notAllowed := by
    rw [toggle_eq_error_iff]
    simp [Registry.descriptor_setIncluded_eq_error_iff]
  refused e he := by
    rcases toggle_eq_error_iff.1 he with ⟨-, heq⟩ | ⟨x, -, hset⟩
    · exact .inl heq
    rcases Registry.descriptor_setIncluded_eq_error_iff.1 hset with ⟨-, heq⟩ | ⟨-, -, -, heq⟩
    · exact .inr (.inl heq)
    · exact .inr (.inr heq)
  unlisted e he := (available_eq_error_iff.1 he).2

end ElementLocator.Locator
