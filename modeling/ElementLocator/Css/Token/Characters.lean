import ElementLocator.Text.Ascii
import ElementLocator.Text.Hex

/-!
# The characters of CSS names and strings

Names consist of ASCII letters and digits, hyphens, underscores, all characters beyond ASCII, and escapes. An
escape is a reverse solidus followed by up to six hexadecimal digits and at most one white space, or by any other
character, which then stands for itself. NUL and numbers that are no character become the replacement character.
A reverse solidus in front of a line end is no escape.

Every function here hands back what it has read and the text behind it, which is never longer than the text it
was given.
-/

namespace ElementLocator.Css

/-- The character that stands for anything unreadable. -/
def replacement : Char := '\uFFFD'

/-- Line feed, carriage return and form feed end a line. -/
def isNewline (c : Char) : Bool := c == '\n' || c == '\r' || c == '\x0c'

/-- A character of a name that stands for itself. -/
def isNameChar (c : Char) : Bool := c.isAlphanum || c == '_' || c == '-' || 0x80 ≤ c.toNat

/-- A character other than a hyphen that may start a name and stands for itself, or NUL. -/
def isNameStart (c : Char) : Bool := c.isAlpha || c == '_' || c == '\x00' || 0x80 ≤ c.toNat

/-- The character with a number, or the replacement character for zero and for numbers of no character. -/
def charOfNumber (n : Nat) : Char := if n = 0 || !n.isValidChar then replacement else Char.ofNat n

/-- The text begins with a line end. -/
def startsLine : List Char → Bool
  | [] => false
  | c :: _ => isNewline c

/-- The text without the line end at its front; carriage return and line feed together are one. -/
def dropNewline : List Char → List Char
  | '\r' :: '\n' :: rest => rest
  | c :: rest => if isNewline c then rest else c :: rest
  | [] => []

/-- The text without one white space at its front. -/
def dropOneSpace : List Char → List Char
  | [] => []
  | c :: rest => if c = ' ' || c = '\t' then rest else dropNewline (c :: rest)

/-- The character that an escape stands for; the reverse solidus has been read. -/
def escapeAt : List Char → Char × List Char
  | [] => (replacement, [])
  | c :: rest =>
    let digits := ((c :: rest).take 6).takeWhile Text.isHexDigit
    if digits.isEmpty then (if c = '\x00' then replacement else c, rest)
    else (charOfNumber (Text.hexNumber digits), dropOneSpace ((c :: rest).drop digits.length))

/-- Dropping a run leaves no more of the text. -/
theorem dropWhile_length (p : Char → Bool) (cs : List Char) : (cs.dropWhile p).length ≤ cs.length :=
  (List.dropWhile_sublist p).length_le

/-- Dropping a line end leaves no more of the text. -/
theorem dropNewline_length (cs : List Char) : (dropNewline cs).length ≤ cs.length := by
  unfold dropNewline
  split
  · simp only [List.length_cons]; omega
  · split <;> simp
  · simp

/-- Dropping a space leaves no more of the text. -/
theorem dropOneSpace_length (cs : List Char) : (dropOneSpace cs).length ≤ cs.length := by
  unfold dropOneSpace
  split
  · simp
  · split
    · simp
    · exact dropNewline_length _

/-- An escape leaves no more of the text. -/
theorem escapeAt_length (cs : List Char) : (escapeAt cs).2.length ≤ cs.length := by
  unfold escapeAt
  split
  · simp
  · dsimp only
    split
    · simp
    · refine Nat.le_trans (dropOneSpace_length _) ?_
      simp

/-- The characters of a name at the front of a text, escapes resolved. -/
def nameRun : List Char → List Char × List Char
  | [] => ([], [])
  | c :: rest =>
    if isNameChar c then
      let (name, later) := nameRun rest
      (c :: name, later)
    else if c = '\x00' then
      let (name, later) := nameRun rest
      (replacement :: name, later)
    else if c = '\\' && !startsLine rest then
      let (name, later) := nameRun (escapeAt rest).2
      ((escapeAt rest).1 :: name, later)
    else ([], c :: rest)
termination_by cs => cs.length
decreasing_by
  · simp
  · simp
  · have := escapeAt_length rest
    simp only [List.length_cons]; omega

/-- A run of a name leaves no more of the text. -/
theorem nameRun_length (cs : List Char) : (nameRun cs).2.length ≤ cs.length := by
  fun_induction nameRun cs with
  | case1 => simp
  | case2 _ _ _ _ _ h ih => simp only [h] at ih; simp only [List.length_cons]; omega
  | case3 _ _ _ h _ ih => simp only [h] at ih; simp only [List.length_cons]; omega
  | case4 _ rest _ _ _ _ _ h ih =>
    have := escapeAt_length rest
    simp only [h] at ih; simp only [List.length_cons]; omega
  | case5 => simp

/-- A name starts here: with a name character that is no digit, with an escape, or with a hyphen in front of
a name character that is no digit or of a reverse solidus. -/
def startsName : List Char → Bool
  | [] => false
  | '-' :: rest => rest.head?.any fun c => isNameStart c || c == '-' || c == '\\'
  | c :: rest => isNameStart c || (c == '\\' && !startsLine rest)

/-- Where a name starts, at least one character is read as part of it. -/
theorem nameRun_length_lt {cs : List Char} (h : startsName cs = true) :
    (nameRun cs).2.length < cs.length := by
  match cs, h with
  | c :: rest, h =>
    have hrest := nameRun_length rest
    have hesc := nameRun_length (escapeAt rest).2
    have hat := escapeAt_length rest
    rw [nameRun]
    split
    · simp only [List.length_cons]; omega
    · next hname =>
      split
      · simp only [List.length_cons]; omega
      · next hnul =>
        split
        · simp only [List.length_cons]; omega
        · next hslash =>
          exfalso
          have hyphen : c ≠ '-' := by rintro rfl; simp [isNameChar] at hname
          have halpha : c.isAlpha = false := by
            cases ha : c.isAlpha
            · rfl
            · simp [isNameChar, Char.isAlphanum, ha] at hname
          simp only [isNameChar, Bool.or_eq_true, not_or] at hname
          unfold startsName at h
          split at h
          · simp_all
          · simp_all
          · next heq =>
            cases heq
            simp_all only [isNameStart, Bool.or_eq_true, Bool.and_eq_true, beq_iff_eq, decide_eq_true_eq,
              Bool.not_eq_true', Bool.not_eq_true]
            grind

/-- The characters of a string up to the closing mark, escapes resolved. The string is bad if its line ends first;
the line end is then not read. The end of the text closes a string. -/
def stringRun (mark : Char) : List Char → Bool × List Char × List Char
  | [] => (true, [], [])
  | c :: rest =>
    if c = mark then (true, [], rest)
    else if isNewline c then (false, [], c :: rest)
    else if c = '\\' then
      if rest.isEmpty then (true, [], [])
      else if startsLine rest then stringRun mark (dropNewline rest)
      else
        let (good, text, later) := stringRun mark (escapeAt rest).2
        (good, (escapeAt rest).1 :: text, later)
    else
      let (good, text, later) := stringRun mark rest
      (good, (if c = '\x00' then replacement else c) :: text, later)
termination_by cs => cs.length
decreasing_by
  · have := dropNewline_length rest
    simp only [List.length_cons]; omega
  · have := escapeAt_length rest
    simp only [List.length_cons]; omega
  · simp

/-- A run of a string leaves no more of the text. -/
theorem stringRun_length (mark : Char) (cs : List Char) : (stringRun mark cs).2.2.length ≤ cs.length := by
  fun_induction stringRun mark cs with
  | case1 => simp
  | case2 => simp
  | case3 => simp
  | case4 => simp
  | case5 rest _ _ _ _ ih =>
    have := dropNewline_length rest
    simp only [List.length_cons]; omega
  | case6 rest _ _ _ _ _ h _ _ ih =>
    have := escapeAt_length rest
    simp only [h] at ih; simp only [List.length_cons]; omega
  | case7 _ _ _ _ _ _ _ _ h ih => simp only [h] at ih; simp only [List.length_cons]; omega

/-- The text behind a comment, whose opening has been read; the end of the text closes a comment. -/
def dropComment : List Char → List Char
  | [] => []
  | '*' :: '/' :: rest => rest
  | _ :: rest => dropComment rest

/-- Dropping a comment leaves no more of the text. -/
theorem dropComment_length (cs : List Char) : (dropComment cs).length ≤ cs.length := by
  fun_induction dropComment cs with
  | case1 => simp
  | case2 => simp only [List.length_cons]; omega
  | case3 _ _ _ ih => simp only [List.length_cons]; omega

end ElementLocator.Css
