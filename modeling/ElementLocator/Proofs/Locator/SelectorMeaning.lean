import ElementLocator.Proofs.Css.Joined
import ElementLocator.Proofs.Locator.Trail
import ElementLocator.Proofs.Locator.WrittenSelector

/-!
# What a written selector matches

An element meets the compound of a descriptor only if it resembles the described node, and the described node itself
meets it because the values are among those that the node offers. The nodes of a trail stand above each other, so
the last one matches the selector of the trail. All this holds where the text of the selector is read as it was meant,
which rules out U+0000 in values and places beyond 32 bits.
-/

namespace ElementLocator.Locator

open Css (Complex Nth Simple ancestorsWithin)

variable {d : Document} {boundary : Option NodeId} {start leaf n m p : NodeId} {descriptors : List Descriptor}
  {x first : Descriptor} {others : List Descriptor} {name value : String}

/-- What is written for a descriptor is read as it was meant: the values have escapes, and the place is an integer of
32 bits. -/
structure Descriptor.Escapable (d : Document) (descriptor : Descriptor) : Prop where
  no_nul : ∀ entry ∈ descriptor.attributes, ∀ v ∈ entry.2, '\x00' ∉ v.toList
  place : d.positionalIndex descriptor.node + 1 ≤ 0x7FFFFFFF

/-! ### Conditions -/

/-- A compound holds if each of its conditions does. -/
theorem allHold_iff {conditions : List Simple} :
    Simple.allHold d boundary n conditions = true ↔ ∀ c ∈ conditions, c.holds d boundary n = true := by
  induction conditions with
  | nil => simp [Simple.allHold]
  | cons c rest ih => rw [Simple.allHold, Bool.and_eq_true, ih, List.forall_mem_cons]

/-- The type condition of a described node holds for the elements with its tag. -/
theorem holds_type (hd : d.Sound) {tag : String} (htag : d.localName? x.node = some tag) :
    (Simple.type (String.ofList (tagOf d x.node))).holds d boundary n = true ↔ d.localName? n = some tag := by
  rw [Simple.holds, lower_tagOf hd htag, beq_iff_eq]

/-- Without a step there is one place. -/
theorem holds_nth {k index : Nat} (ofType fromEnd : Bool) :
    (⟨0, k, ofType, fromEnd⟩ : Nth).holds index = true ↔ index = k := by
  constructor
  · intro h
    unfold Nth.holds at h
    dsimp only at h
    split at h
    · cases h
    · rw [if_pos rfl, beq_iff_eq] at h
      omega
  · rintro rfl
    simp [Nth.holds]

/-- The condition on the place holds at that place only. -/
theorem holds_placePiece {k : Nat} (hk : k ≤ 0x7FFFFFFF) :
    Simple.allHold d boundary n (Css.placePiece k).2 = true ↔ d.positionalIndex n + 1 = k := by
  have hholds : (Simple.nth ⟨0, (k : Nat), true, false⟩).holds d boundary n =
      Nth.holds ⟨0, (k : Nat), true, false⟩ (d.positionalIndex n + 1) := by
    rw [Simple.holds]
    rfl
  rw [Css.placePiece, Nat.min_eq_right hk, Simple.allHold, Simple.allHold, Bool.and_true, hholds, holds_nth]

/-- The conditions on the place of a node hold where its place is, or everywhere if it is the first with its tag. -/
theorem holds_placePieces {x : NodeId} (hplace : d.positionalIndex x + 1 ≤ 0x7FFFFFFF) :
    Simple.allHold d boundary n ((placePieces d x).flatMap Prod.snd) = true ↔
      d.positionalIndex x = 0 ∨ d.positionalIndex n = d.positionalIndex x := by
  unfold placePieces
  cases hk : d.positionalIndex x with
  | zero => simp [Simple.allHold]
  | succ k =>
    have hbound : k + 2 ≤ 0x7FFFFFFF := by rwa [hk] at hplace
    rw [List.flatMap_singleton, holds_placePiece hbound]
    omega

/-- An element that offers the values of an attribute meets the conditions on it. -/
theorem holds_attributePieces (hlower : Text.lower name = name) {values : List String}
    (hoffered : ∀ v ∈ values, v ∈ candidateValues d n name) (hnul : ∀ v ∈ values, '\x00' ∉ v.toList) :
    Simple.allHold d boundary n ((attributePieces name values).flatMap Prod.snd) = true := by
  rw [allHold_iff]
  intro c hc
  obtain ⟨piece, hpiece, hc⟩ := List.mem_flatMap.1 hc
  unfold attributePieces at hpiece
  split at hpiece
  · next hclass =>
    obtain ⟨v, hv, rfl⟩ := List.mem_map.1 hpiece
    obtain rfl := List.mem_singleton.1 hc
    obtain ⟨-, hmem | hother⟩ := mem_candidateValues hlower (hoffered v hv)
    · rw [Simple.holds, restored_of_not_mem (hnul v hv)]
      simpa using hmem.2
    · exact absurd hclass hother.1
  · next hclass =>
    split at hpiece
    · cases hpiece
    · next v more =>
      have hv := restored_of_not_mem (hnul v List.mem_cons_self)
      obtain ⟨-, hmem | hother⟩ := mem_candidateValues hlower (hoffered v List.mem_cons_self)
      · exact absurd hmem.1 hclass
      · split at hpiece
        · next hid =>
          obtain rfl := List.mem_singleton.1 hpiece
          obtain rfl := List.mem_singleton.1 hc
          rw [Simple.holds, hv, ← hid, hother.2, beq_self_eq_true]
        · obtain rfl := List.mem_singleton.1 hpiece
          obtain rfl := List.mem_singleton.1 hc
          rw [Simple.holds, hv, hlower, hother.2]
          simp [Css.AttributeTest.holds, Css.AttributeOperator.holds]

/-! ### Compounds -/

/-- The conditions of a compound are the type, then the place, then the chosen values. -/
theorem conditions_toCompound (x : Descriptor) :
    (x.toCompound d).conditions = .type (String.ofList (tagOf d x.node)) ::
      ((placePieces d x.node).flatMap Prod.snd ++
        x.attributes.flatMap fun entry => (attributePieces entry.1 entry.2).flatMap Prod.snd) := by
  rw [Css.Compound.conditions, Descriptor.toCompound, List.flatMap_append, List.flatMap_assoc]

/-- What meets the compound of a descriptor resembles the described node. -/
theorem resembles_of_allHold (hd : d.Sound) (hx : x.Writable d) (hescapable : x.Escapable d)
    (h : Simple.allHold d boundary n (x.toCompound d).conditions = true) : x.Resembles d n := by
  obtain ⟨tag, htag, -⟩ := hx.tag
  rw [conditions_toCompound, allHold_iff, List.forall_mem_cons, holds_type hd htag] at h
  have hplace : Simple.allHold d boundary n ((placePieces d x.node).flatMap Prod.snd) = true :=
    allHold_iff.2 fun c hc => h.2 c (List.mem_append_left _ hc)
  exact ⟨h.1.trans htag.symm, (holds_placePieces hescapable.place).1 hplace⟩

/-- The described node meets its own compound. -/
theorem allHold_toCompound (hd : d.Sound) (hx : x.Writable d) (hoffered : x.Offered d) (hescapable : x.Escapable d) :
    Simple.allHold d boundary x.node (x.toCompound d).conditions = true := by
  obtain ⟨tag, htag, -⟩ := hx.tag
  rw [conditions_toCompound, allHold_iff, List.forall_mem_cons, holds_type hd htag]
  refine ⟨htag, fun c hc => ?_⟩
  rcases List.mem_append.1 hc with hc | hc
  · exact allHold_iff.1 ((holds_placePieces hescapable.place).2 (.inr rfl)) c hc
  · obtain ⟨entry, hentry, hc⟩ := List.mem_flatMap.1 hc
    exact allHold_iff.1 (holds_attributePieces (hx.lower entry hentry) (hoffered entry hentry)
      (hescapable.no_nul entry hentry)) c hc

/-! ### Selectors -/

/-- A selector of one compound matches what meets the conditions. -/
theorem matches_singleton :
    Complex.Matches d boundary (selectorOf d first []) n ↔
      Simple.allHold d boundary n (first.toCompound d).conditions = true :=
  Iff.rfl

/-- A longer selector matches what meets the last conditions below an ancestor that matches the rest. -/
theorem matches_selectorOf_concat :
    Complex.Matches d boundary (selectorOf d first (others ++ [x])) n ↔
      Simple.allHold d boundary n (x.toCompound d).conditions = true ∧
        ∃ m ∈ ancestorsWithin d boundary n, Complex.Matches d boundary (selectorOf d first others) m := by
  rw [selectorOf, List.map_append, List.map_singleton, Css.matches_concat]
  rfl

/-- A trail inside the boundary ends at a match of its selector. By induction on the trail from its end, where each node
has the one before it as its parent. -/
theorem Leads.matches (hd : d.Sound) (hwritable : ∀ x ∈ first :: others, x.Writable d)
    (hoffered : ∀ x ∈ first :: others, x.Offered d) (hescapable : ∀ x ∈ first :: others, x.Escapable d)
    (hinside : ∀ x ∈ first :: others, boundary ≠ some x.node)
    (h : Leads d (first :: others) p leaf) : Complex.Matches d boundary (selectorOf d first others) leaf := by
  induction others using List.reverseRecOn generalizing leaf with
  | nil =>
    obtain ⟨-, rfl⟩ := h
    exact matches_singleton.2
      (allHold_toCompound hd (hwritable first List.mem_cons_self) (hoffered first List.mem_cons_self)
        (hescapable first List.mem_cons_self))
  | append_singleton others x ih =>
    have hmem : ∀ y ∈ first :: others, y ∈ first :: (others ++ [x]) := fun y hy =>
      List.mem_append_left [x] hy
    have hx : x ∈ first :: (others ++ [x]) := by simp
    rw [← List.cons_append, leads_concat] at h
    obtain ⟨k, hk, hparent, rfl⟩ := h
    obtain ⟨y, hy, rfl⟩ := hk.exists_node (List.cons_ne_nil _ _)
    have hparentElement : d.parentElement? x.node = some y.node :=
      Document.parentElement?_eq_some_iff.2 ⟨hparent, (hwritable y (hmem y hy)).isElement⟩
    refine matches_selectorOf_concat.2
      ⟨allHold_toCompound hd (hwritable x hx) (hoffered x hx) (hescapable x hx), y.node, ?_, ?_⟩
    · rw [Css.ancestorsWithin_of_parent hd hparentElement (hinside y (hmem y hy))]
      exact List.mem_cons_self
    · exact ih (fun z hz => hwritable z (hmem z hz)) (fun z hz => hoffered z (hmem z hz))
        (fun z hz => hescapable z (hmem z hz)) (fun z hz => hinside z (hmem z hz)) hk

end ElementLocator.Locator
