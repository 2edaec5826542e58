/-!
# ASCII letter case and ASCII white space

HTML folds tag and attribute names over the ASCII letters only, and separates class tokens by the five
ASCII white space characters. The functions here state those two rules, together with cutting a text at a
separator. All of them work on the list of characters, so that their laws are list inductions.
-/

namespace ElementLocator.Text

/-- The text with every ASCII letter in lower case. -/
def lower (s : String) : String := String.ofList (s.toList.map Char.toLower)

/-- The text with every ASCII letter in upper case. -/
def upper (s : String) : String := String.ofList (s.toList.map Char.toUpper)

/-- Two texts that differ at most in the case of ASCII letters. -/
def equalIgnoringCase (s t : String) : Bool := lower s == lower t

/-- Space, tab, line feed, form feed and carriage return. -/
def isSpace (c : Char) : Bool := c == ' ' || c == '\t' || c == '\n' || c == '\x0c' || c == '\r'

/-- A word that may be empty, put in front of the words after it only if it is not. -/
def consWord (word : List Char) (words : List (List Char)) : List (List Char) :=
  if word.isEmpty then words else word :: words

/-- The unfinished word at the front of the text, and the words after it. -/
def splitWords : List Char → List Char × List (List Char)
  | [] => ([], [])
  | c :: rest =>
    let (word, later) := splitWords rest
    if isSpace c then ([], consWord word later) else (c :: word, later)

/-- The maximal runs of characters that are not ASCII white space, in order. -/
def words (s : String) : List String :=
  let (word, later) := splitWords s.toList
  (consWord word later).map String.ofList

/-- The pieces between the occurrences of a separator; there is always at least one. -/
def splitAtEach (separator : Char) : List Char → List (List Char)
  | [] => [[]]
  | c :: rest =>
    if c = separator then [] :: splitAtEach separator rest
    else match splitAtEach separator rest with
      | piece :: later => (c :: piece) :: later
      | [] => [[c]]

/-- What stands before and after the first occurrence of a separator. -/
def cutAtFirst (separator : Char) : List Char → Option (List Char × List Char)
  | [] => none
  | c :: rest =>
    if c = separator then some ([], rest)
    else (cutAtFirst separator rest).map fun (before, after) => (c :: before, after)

/-- The first text occurs somewhere in the second. -/
def occursIn (needle : List Char) : List Char → Bool
  | [] => needle.isEmpty
  | c :: rest => needle.isPrefixOf (c :: rest) || occursIn needle rest

/-- The cut is at a separator that has none in front of it. -/
theorem cutAtFirst_of_not_mem {separator : Char} {before : List Char} (h : separator ∉ before) (after : List Char) :
    cutAtFirst separator (before ++ separator :: after) = some (before, after) := by
  induction before with
  | nil => simp [cutAtFirst]
  | cons c rest ih =>
    rw [List.mem_cons, not_or] at h
    rw [List.cons_append, cutAtFirst, if_neg (Ne.symm h.1), ih h.2]
    rfl

/-- A text is split into one piece at least. -/
theorem splitAtEach_ne_nil (separator : Char) (s : List Char) : splitAtEach separator s ≠ [] := by
  cases s with
  | nil => simp [splitAtEach]
  | cons c rest =>
    simp only [splitAtEach]
    split
    · simp
    · split <;> simp

end ElementLocator.Text
