import ElementLocator.Css.Token
import ElementLocator.Css.Token.Characters

/-!
# Unquoted CSS addresses

The text behind `url(` is an address unless a quotation mark comes first. White space is allowed at both ends.
Quotation marks, parentheses, controls, escaped line ends and inner white space spoil the address; a spoilt
address goes on to the next parenthesis that closes it.
-/

namespace ElementLocator.Css

/-- White space of CSS. -/
def isCssSpace (c : Char) : Bool := Text.isSpace c

/-- The text from the parenthesis that closes a spoilt address on. -/
def closeSpoilt : List Char → List Char
  | [] => []
  | ')' :: rest => ')' :: rest
  | '\\' :: ')' :: rest => closeSpoilt rest
  | '\\' :: '\\' :: rest => closeSpoilt rest
  | _ :: rest => closeSpoilt rest

/-- A character that spoils an address. -/
def spoilsUrl (c : Char) : Bool :=
  c == '"' || c == '\'' || c == '(' || c.toNat == 0x7f || c.toNat == 0x0b ||
    (0x01 ≤ c.toNat && c.toNat ≤ 0x08) || (0x0e ≤ c.toNat && c.toNat ≤ 0x1f)

/-- The characters of an address, escapes resolved, and the text behind its parenthesis; or nothing and the text
from the parenthesis of a spoilt address on. -/
def urlRun : List Char → Option (List Char) × List Char
  | [] => (some [], [])
  | c :: rest =>
    if isCssSpace c then
      match rest.dropWhile isCssSpace with
      | [] => (some [], [])
      | d :: later => if d = ')' then (some [], later) else (none, closeSpoilt later)
    else if c = ')' then (some [], rest)
    else if spoilsUrl c then (none, closeSpoilt rest)
    else if c = '\\' then
      if startsLine rest then (none, closeSpoilt rest)
      else
        let (text, later) := urlRun (escapeAt rest).2
        (text.map ((escapeAt rest).1 :: ·), later)
    else
      let (text, later) := urlRun rest
      (text.map ((if c = '\x00' then replacement else c) :: ·), later)
termination_by cs => cs.length
decreasing_by
  · have := escapeAt_length rest
    simp only [List.length_cons]; omega
  · simp

/-- The address token behind `url(`, unless a quotation mark comes first. -/
def urlToken? (cs : List Char) : Option (Token × List Char) :=
  let start := cs.dropWhile isCssSpace
  match start with
  | [] => some (.unquotedUrl "", [])
  | c :: rest =>
    if c = '"' || c = '\'' then none
    else if c = ')' then some (.unquotedUrl "", rest)
    else match urlRun start with
      | (some text, later) => some (.unquotedUrl (String.ofList text), later)
      | (none, later) =>
        some (.badUrl (String.ofList (start.take (start.length - later.length))), later.drop 1)

/-- Closing a spoilt address leaves no more of the text. -/
theorem closeSpoilt_length (cs : List Char) : (closeSpoilt cs).length ≤ cs.length := by
  fun_induction closeSpoilt cs with
  | case1 => simp
  | case2 => simp
  | case3 _ ih => simp only [List.length_cons]; omega
  | case4 _ ih => simp only [List.length_cons]; omega
  | case5 _ _ _ _ _ ih => simp only [List.length_cons]; omega

/-- A run of an address leaves no more of the text. -/
theorem urlRun_length (cs : List Char) : (urlRun cs).2.length ≤ cs.length := by
  fun_induction urlRun cs with
  | case1 => simp
  | case2 => simp
  | case3 _ rest _ later h =>
    have := dropWhile_length isCssSpace rest
    simp only [h, List.length_cons] at this
    simp only [List.length_cons]; omega
  | case4 c rest _ d later h _ =>
    have h1 := dropWhile_length isCssSpace rest
    have h2 := closeSpoilt_length later
    simp only [h, List.length_cons] at h1
    simp only [List.length_cons]; omega
  | case5 => simp
  | case6 _ rest => have := closeSpoilt_length rest; simp only [List.length_cons]; omega
  | case7 rest => have := closeSpoilt_length rest; simp only [List.length_cons]; omega
  | case8 rest _ _ _ h _ _ _ ih =>
    have := escapeAt_length rest
    simp only [List.length_cons]; simp only [h] at ih; omega
  | case9 _ rest _ _ _ _ _ _ h ih => simp only [List.length_cons]; simp only [h] at ih; omega

/-- An address leaves no more of the text. -/
theorem urlToken?_length {cs rest : List Char} {t : Token} (h : urlToken? cs = some (t, rest)) :
    rest.length ≤ cs.length := by
  have hstart := dropWhile_length isCssSpace cs
  have hrun := urlRun_length (cs.dropWhile isCssSpace)
  unfold urlToken? at h
  dsimp only at h
  split at h
  · cases h; simp
  · next c later heq =>
    rw [heq] at hstart
    split at h
    · cases h
    split at h
    · cases h; simp only [List.length_cons] at hstart; omega
    split at h
    · next hu => cases h; simp only [heq] at hrun hu; rw [hu] at hrun; simp only at hrun; omega
    · next hu =>
      cases h; simp only [heq] at hrun hu; rw [hu] at hrun
      simp only [List.length_drop] at hrun ⊢; omega

end ElementLocator.Css
