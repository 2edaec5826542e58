import ElementLocator.Text.Ascii
import Mathlib

/-!
# Occurrences, words and pieces

A text occurs in another one if it is a run of its characters. The words of a text occur in it, and no word is
empty. The pieces between the occurrences of a separator make up the text again and do not hold the separator.
-/

namespace ElementLocator.Text

variable {s w : String}

/-- Occurring is being a run of consecutive characters. -/
theorem occursIn_iff {needle hay : List Char} : occursIn needle hay = true ↔ needle <:+: hay := by
  induction hay with
  | nil => simp [occursIn]
  | cons c rest ih => rw [occursIn, Bool.or_eq_true, ih, List.infix_cons_iff, List.isPrefixOf_iff_prefix]

/-- A word put in front is one of the words, unless it is empty. -/
theorem mem_consWord {word u : List Char} {words : List (List Char)} (h : u ∈ consWord word words) :
    (u = word ∧ word ≠ []) ∨ u ∈ words := by
  unfold consWord at h
  split at h
  · exact .inr h
  · next hword =>
    rcases List.mem_cons.1 h with rfl | h
    · exact .inl ⟨rfl, by simpa using hword⟩
    · exact .inr h

/-- The unfinished word is at the front of the text, and all later words are not empty and occur in it. -/
theorem splitWords_spec (cs : List Char) :
    (splitWords cs).1 <+: cs ∧ ∀ u ∈ (splitWords cs).2, u ≠ [] ∧ u <:+: cs := by
  induction cs with
  | nil => simp [splitWords]
  | cons c rest ih =>
    obtain ⟨hfirst, hlater⟩ := ih
    rw [splitWords]
    dsimp only
    split
    · refine ⟨List.nil_prefix, fun u hu => ?_⟩
      rcases mem_consWord hu with ⟨rfl, hne⟩ | hu
      · exact ⟨hne, List.infix_cons hfirst.isInfix⟩
      · exact ⟨(hlater u hu).1, List.infix_cons (hlater u hu).2⟩
    · exact ⟨List.cons_prefix_cons.2 ⟨rfl, hfirst⟩, fun u hu => ⟨(hlater u hu).1, List.infix_cons (hlater u hu).2⟩⟩

/-- A word of a text is not empty and occurs in the text. -/
theorem mem_words (h : w ∈ words s) : w ≠ "" ∧ w.toList <:+: s.toList := by
  obtain ⟨u, hu, rfl⟩ := List.mem_map.1 h
  obtain ⟨hfirst, hlater⟩ := splitWords_spec s.toList
  rw [String.toList_ofList]
  rcases mem_consWord hu with ⟨rfl, hne⟩ | hu
  · refine ⟨?_, hfirst.isInfix⟩
    rwa [Ne, ← String.toList_inj, String.toList_ofList]
  · refine ⟨?_, (hlater u hu).2⟩
    rw [Ne, ← String.toList_inj, String.toList_ofList]
    exact (hlater u hu).1

/-! ### Pieces -/

/-- There is one piece more than there are separators. -/
theorem length_splitAtEach (separator : Char) (cs : List Char) :
    (splitAtEach separator cs).length = cs.count separator + 1 := by
  induction cs with
  | nil => rfl
  | cons c rest ih =>
    by_cases hc : c = separator
    · rw [splitAtEach, if_pos hc, List.length_cons, ih, hc, List.count_cons_self]
    · rw [splitAtEach, if_neg hc, List.count_cons_of_ne hc, ← ih]
      split
      · next heq => simp [heq]
      · next heq => exact absurd heq (splitAtEach_ne_nil separator rest)

/-- The separator is in none of the pieces. -/
theorem not_mem_of_mem_splitAtEach {separator : Char} {cs piece : List Char}
    (h : piece ∈ splitAtEach separator cs) : separator ∉ piece := by
  induction cs generalizing piece with
  | nil => simp_all [splitAtEach]
  | cons c rest ih =>
    by_cases hc : c = separator
    · rw [splitAtEach, if_pos hc, List.mem_cons] at h
      rcases h with rfl | h
      · simp
      · exact ih h
    · rw [splitAtEach, if_neg hc] at h
      split at h
      · next first later heq =>
        rcases List.mem_cons.1 h with rfl | h
        · rw [List.mem_cons, not_or]
          exact ⟨Ne.symm hc, ih (heq ▸ List.mem_cons_self)⟩
        · exact ih (heq ▸ List.mem_cons_of_mem first h)
      · next heq => exact absurd heq (splitAtEach_ne_nil separator rest)

/-- The pieces with the separator between them are the text. -/
theorem intercalate_splitAtEach (separator : Char) (cs : List Char) :
    [separator].intercalate (splitAtEach separator cs) = cs := by
  induction cs with
  | nil => rfl
  | cons c rest ih =>
    by_cases hc : c = separator
    · rw [splitAtEach, if_pos hc, List.intercalate_cons_of_ne_nil (splitAtEach_ne_nil separator rest), ih, hc]
      rfl
    · rw [splitAtEach, if_neg hc]
      split
      · next heq => rw [List.intercalate_cons_cons_left, ← heq, ih]
      · next heq => exact absurd heq (splitAtEach_ne_nil separator rest)

end ElementLocator.Text
