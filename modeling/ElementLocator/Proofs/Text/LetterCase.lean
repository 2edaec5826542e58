import ElementLocator.Text.Ascii
import Mathlib

/-!
# Laws of ASCII letter case

Folding is idempotent and forgets an earlier change of case, so a text in lower case is recovered from its
upper-case form, and comparing without regard to case compares the folded texts.
-/

namespace ElementLocator.Text

@[simp] theorem toList_lower (s : String) : (lower s).toList = s.toList.map Char.toLower := by
  simp [lower]

@[simp] theorem toList_upper (s : String) : (upper s).toList = s.toList.map Char.toUpper := by
  simp [upper]

@[simp] theorem lower_lower (s : String) : lower (lower s) = lower s := by
  simp [lower, Function.comp_def]

/-- Folding forgets that a text was put into upper case. -/
@[simp] theorem lower_upper (s : String) : lower (upper s) = lower s := by
  simp [lower, upper, Function.comp_def]

/-- Texts are equal up to letter case if they are equal in lower case. -/
theorem equalIgnoringCase_iff {s t : String} : equalIgnoringCase s t = true ↔ lower s = lower t := by
  simp [equalIgnoringCase]

end ElementLocator.Text
