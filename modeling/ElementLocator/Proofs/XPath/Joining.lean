import ElementLocator.Proofs.XPath.Acceptance
import ElementLocator.Proofs.XPath.Writing

/-!
# Location paths put together

Where a slash stands, the token in front of it is over, whichever token that is, as long as it is no slash itself.
So texts that have tokens can be put together with a slash between them, and if both write location paths, the second
of them a relative one, the whole is read as the steps of the one and then the steps of the other. A double slash
puts the step between them that it stands for.
-/

namespace ElementLocator.XPath

variable {c : Char} {cs rest : List Char} {toks more : List Token} {offset : Nat} {l : Lexeme}

/-! ### Up to a slash -/

/-- A token that is over at the end of a text is over where a slash follows the text. Only a slash goes on with a slash,
and a slash with nothing behind it is the whole text. -/
theorem lexeme_append_slash (h : lexeme c cs = .ok l) (hslash : l.token = .slash → cs ≠ []) (rest : List Char) :
    lexeme c (cs ++ '/' :: rest) = .ok ⟨l.token, l.spelling, l.rest ++ '/' :: rest⟩ := by
  obtain ⟨hspelled, hover⟩ := lexeme_sound h
  obtain ⟨x, later, hspelling⟩ := List.exists_cons_of_ne_nil hspelled.ne_nil
  have hsplit := lexeme_split h
  rw [hspelling] at hspelled hover hsplit ⊢
  rw [List.cons_append, List.cons_eq_cons] at hsplit
  obtain ⟨rfl, hcs⟩ := hsplit
  have hbehind : Over l.token (c :: later) (l.rest ++ '/' :: rest) := by
    cases hrest : l.rest with
    | cons d behind =>
      rw [hrest] at hover
      exact over_cons.2 (over_cons.1 hover)
    | nil =>
      refine over_cons.2 (not_goesOn_slash fun htoken => hslash htoken ?_)
      have hlater : c :: later = ['/'] := hspelled.eq_sign (by rw [htoken]; rfl)
      rw [hcs, hrest, (List.cons.inj hlater).2]
      rfl
  rw [hcs, List.append_assoc]
  exact (lexeme_of_spelled hspelled hbehind).2

/-! ### Texts with tokens -/

/-- The token at the front of a text, and those of what stands behind it. -/
theorem exists_of_map_cons {x : Except Error (List Placed)} {t : Placed} {placed : List Placed}
    (h : x.map (t :: ·) = .ok placed) : ∃ later, x = .ok later ∧ placed = t :: later := by
  cases x with
  | error => cases h
  | ok later =>
    cases h
    exact ⟨later, rfl, rfl⟩

/-- The tokens of a text do not depend on where it stands. -/
theorem spells_of_tokens {placed : List Placed} (h : tokens offset cs = .ok placed) :
    Spells cs (placed.map Placed.token) := by
  fun_induction tokens offset cs generalizing placed with
  | case1 =>
    cases h
    exact Spells.nil
  | case2 _ _ _ hc ih => exact (ih h).separator hc
  | case3 => cases h
  | case4 _ _ _ hc l hl ih =>
    obtain ⟨later, hlater, rfl⟩ := exists_of_map_cons h
    exact Spells.of_lexeme (by simpa using hc) hl (ih hlater)

/-- A text that does not end with a slash has its tokens in front of a slash as well. -/
theorem spells_append_slash {placed : List Placed} (h : tokens offset cs = .ok placed)
    (hlast : ∀ t ∈ placed.getLast?, t.token ≠ .slash) (hrest : Spells ('/' :: rest) more) :
    Spells (cs ++ '/' :: rest) (placed.map Placed.token ++ more) := by
  fun_induction tokens offset cs generalizing placed with
  | case1 =>
    cases h
    exact hrest
  | case2 _ _ _ hc ih => exact (ih h hlast).separator hc
  | case3 => cases h
  | case4 offset c cs hc l hl ih =>
    obtain ⟨later, hlater, rfl⟩ := exists_of_map_cons h
    have hslash : l.token = .slash → cs ≠ [] := by
      intro htoken hnil
      have hlength := lexeme_rest_length hl
      rw [hnil, List.length_singleton, Nat.lt_one_iff, List.length_eq_zero_iff] at hlength
      rw [hlength, tokens] at hlater
      cases hlater
      exact hlast _ rfl htoken
    have hbehind := ih hlater fun t ht => hlast t (by rw [List.getLast?_cons, Option.mem_def.1 ht]; rfl)
    exact Spells.of_lexeme (by simpa using hc) (lexeme_append_slash hl hslash rest) hbehind

/-- The token at the front of a text, and the tokens of what stands behind it. -/
theorem Spells.behind (h : Spells (c :: cs) toks) (hc : isSeparator c = false) (hl : lexeme c cs = .ok l) :
    ∃ more, toks = l.token :: more ∧ Spells l.rest more := by
  obtain ⟨placed, hplaced, rfl⟩ := h 0
  rw [tokens_of_lexeme hc hl] at hplaced
  obtain ⟨later, hlater, rfl⟩ := exists_of_map_cons hplaced
  exact ⟨later.map Placed.token, rfl, spells_of_tokens hlater⟩

/-- A text whose first token is no slash does not start with one. -/
theorem Spells.ne_slash {t : Token} (h : Spells (c :: cs) (t :: toks)) (ht : t ≠ .slash ∧ t ≠ .doubleSlash) :
    c ≠ '/' := by
  rintro rfl
  have hlexeme : ∃ l, lexeme '/' cs = .ok l ∧ (l.token = .slash ∨ l.token = .doubleSlash) := by
    unfold lexeme
    have hpunctuation : punctuation? '/' = none := rfl
    rw [hpunctuation]
    dsimp only
    rw [if_pos rfl]
    split
    · exact ⟨_, rfl, .inr rfl⟩
    · exact ⟨_, rfl, .inl rfl⟩
  obtain ⟨l, hl, hslash⟩ := hlexeme
  obtain ⟨more, heq, -⟩ := h.behind rfl hl
  cases heq
  rcases hslash with hslash | hslash
  · exact ht.1 hslash
  · exact ht.2 hslash

/-! ### Derivations -/

namespace Derives

variable {IsStep : List Token → XPath.Step → Prop} {ts us : List Token} {steps others between : List XPath.Step}
  {s : XPath.Step} {separator : Token}

/-- The tokens end with one that no slash can change. -/
def Ends (ts : List Token) : Prop := ∃ t, ts.getLast? = some t ∧ t ≠ .slash

/-- More tokens in front do not change how the tokens end. -/
theorem Ends.append (h : Ends us) (ts : List Token) : Ends (ts ++ us) := by
  obtain ⟨t, hlast, ht⟩ := h
  exact ⟨t, by rw [List.getLast?_append, hlast]; rfl, ht⟩

/-- The tokens of a step end with one that no slash can change. -/
theorem Step.ends (h : Step ts s) : Ends ts := by
  cases h with
  | dot | dotDot => exact ⟨_, rfl, nofun⟩
  | full predicates _ htest _ =>
    rcases List.eq_nil_or_concat predicates with rfl | ⟨others, last, rfl⟩
    · rw [List.flatMap_nil, List.append_nil]
      apply Ends.append
      cases htest <;> exact ⟨_, rfl, nofun⟩
    · rw [List.concat_eq_append, List.flatMap_append, List.flatMap_singleton, ← List.append_assoc, ← List.append_assoc]
      exact Ends.append ⟨.rightBracket, rfl, nofun⟩ _

/-- So does a relative path. -/
theorem RelPath.ends (h : RelPath Step ts steps) : Ends ts := by
  induction h with
  | step hfirst => exact hfirst.ends
  | cons _ _ _ ih => exact (ih.append [_]).append _

/-- A step without the name of its axis goes to children. -/
theorem Step.without_axis {name : String} (h : Step ts s) (hts : ts = .name name :: .colonColon :: us) :
    Step us ⟨.child, s.test, s.predicates⟩ := by
  cases h with
  | dot | dotDot => cases hts
  | full predicates haxis htest hpredicates =>
    cases haxis with
    | named =>
      cases hts
      exact .full predicates .none htest hpredicates
    | none =>
      exfalso
      cases htest with
      | star | node => cases hts
      | name => cases predicates <;> cases hts

/-- A relative path has a step. -/
theorem RelPath.ne_nil (h : RelPath IsStep ts steps) : steps ≠ [] := by
  cases h <;> exact List.cons_ne_nil _ _

/-- A path of one step. -/
theorem RelPath.singleton (h : RelPath IsStep ts [s]) : IsStep ts s := by
  generalize hsteps : [s] = steps at h
  cases h with
  | step hfirst =>
    cases hsteps
    exact hfirst
  | cons _ _ hmore =>
    have hnil := (List.cons.inj hsteps).2
    exact absurd (List.append_eq_nil_iff.1 hnil.symm).2 hmore.ne_nil

/-- Two paths with a slash between them. -/
theorem RelPath.append (h : RelPath IsStep ts steps) (hslash : Slash separator between)
    (hmore : RelPath IsStep us others) : RelPath IsStep (ts ++ separator :: us) (steps ++ (between ++ others)) := by
  induction h with
  | step hfirst =>
    have hall := RelPath.cons hfirst hslash hmore
    exact hall
  | cons hfirst hfirstSlash _ ih =>
    have hall := RelPath.cons hfirst hfirstSlash ih
    simpa only [List.append_assoc, List.cons_append] using hall

/-- A path goes on behind a slash with the steps of a relative path. -/
theorem Path.append {path : LocationPath} (h : Path IsStep ts path) (hne : path.steps ≠ [])
    (hslash : Slash separator between) (hmore : RelPath IsStep us others) :
    Path IsStep (ts ++ separator :: us) ⟨path.absolute, path.steps ++ (between ++ others)⟩ := by
  cases h with
  | root => exact absurd rfl hne
  | absolute hfirstSlash hsteps =>
    have hall := Path.absolute hfirstSlash (hsteps.append hslash hmore)
    simpa only [List.append_assoc, List.cons_append] using hall
  | relative hsteps => exact .relative (hsteps.append hslash hmore)

/-- A relative path does not start with a slash. -/
theorem RelPath.starts (h : RelPath Step ts steps) : ∃ t more, ts = t :: more ∧ t ≠ .slash ∧ t ≠ .doubleSlash :=
  Grammar.starts_of_relPath (h.mono fun _ _ => @Step.reads 0 _ _)

/-- A path has tokens. -/
theorem Path.ne_nil {path : LocationPath} (h : Path Step ts path) : ts ≠ [] := by
  cases h with
  | root | absolute => exact List.cons_ne_nil _ _
  | relative hsteps =>
    obtain ⟨t, more, rfl, -⟩ := hsteps.starts
    exact List.cons_ne_nil _ _

/-- The tokens of a path with a step end with one that no slash can change. -/
theorem Path.ends {path : LocationPath} (h : Path Step ts path) (hne : path.steps ≠ []) : Ends ts := by
  cases h with
  | root => exact absurd rfl hne
  | absolute _ hsteps => exact hsteps.ends.append [_]
  | relative hsteps => exact hsteps.ends

/-- A path that does not start at the root is a relative path. -/
theorem relPath_of_path (h : Path Step ts ⟨false, steps⟩) : RelPath Step ts steps := by
  cases h with
  | relative hsteps => exact hsteps

end Derives

/-! ### Queries -/

variable {query front last : String} {path : LocationPath} {steps between : List Step} {separator : Token}

/-- A query is read as a path exactly if the grammar derives the path for the tokens that the query spells. -/
theorem parse_iff_spells : parse query = .ok path ↔
    ∃ toks, Spells query.toList toks ∧ Derives.Path Derives.Step toks path := by
  constructor
  · intro h
    obtain ⟨placed, hplaced, -, hpath⟩ := derives_of_parse h
    exact ⟨_, spells_of_tokens hplaced, hpath⟩
  · intro h
    obtain ⟨toks, hspells, hpath⟩ := h
    obtain ⟨placed, hplaced, rfl⟩ := hspells 0
    rw [parse, hplaced]
    exact ofTokens_ok_iff.2 ⟨fun hnil => hpath.ne_nil (congrArg _ hnil), hpath⟩

/-- The text of a relative path behind a slash. -/
theorem Spells.separated (h : Spells cs toks) (hslash : Derives.Slash separator between)
    (hpath : Derives.RelPath Derives.Step toks steps) :
    Spells (separator.display.toList ++ cs) (separator :: toks) := by
  cases hslash with
  | double => exact h.doubleSlash
  | single =>
    obtain ⟨t, more, rfl, ht⟩ := hpath.starts
    cases cs with
    | nil =>
      obtain ⟨placed, hplaced, hmap⟩ := h 0
      rw [tokens] at hplaced
      cases hplaced
      cases hmap
    | cons c cs => exact h.slash (h.ne_slash ht)

/-- A slash and a relative path are read as an absolute one. -/
theorem parse_display_append (hslash : Derives.Slash separator between) (hlast : parse last = .ok ⟨false, steps⟩) :
    parse (separator.display ++ last) = .ok ⟨true, between ++ steps⟩ := by
  obtain ⟨toks, hspells, hpath⟩ := parse_iff_spells.1 hlast
  have hsteps := Derives.relPath_of_path hpath
  apply parse_iff_spells.2
  refine ⟨separator :: toks, ?_, .absolute hslash hsteps⟩
  rw [String.toList_append]
  exact hspells.separated hslash hsteps

/-- Two paths with a slash between them are read as the steps of the one and then the steps of the other. -/
theorem parse_append (hfront : parse front = .ok path) (hne : path.steps ≠ [])
    (hslash : Derives.Slash separator between) (hlast : parse last = .ok ⟨false, steps⟩) :
    parse (front ++ separator.display ++ last) = .ok ⟨path.absolute, path.steps ++ (between ++ steps)⟩ := by
  obtain ⟨placed, hplaced, -, hpath⟩ := derives_of_parse hfront
  obtain ⟨toks, hspells, hrelative⟩ := parse_iff_spells.1 hlast
  have hsteps := Derives.relPath_of_path hrelative
  have hbehind := hspells.separated hslash hsteps
  obtain ⟨rest, hrest⟩ : ∃ rest, separator.display.toList ++ last.toList = '/' :: rest := by
    cases hslash <;> exact ⟨_, rfl⟩
  apply parse_iff_spells.2
  refine ⟨placed.map Placed.token ++ separator :: toks, ?_, hpath.append hne hslash hsteps⟩
  rw [String.append_assoc, String.toList_append, String.toList_append, hrest]
  rw [hrest] at hbehind
  apply spells_append_slash hplaced _ hbehind
  intro t ht
  obtain ⟨token, hend, htoken⟩ := hpath.ends hne
  rw [List.getLast?_map, Option.mem_def.1 ht] at hend
  cases hend
  exact htoken

/-- The axis of a step is named in front of it, and without the name the step goes to children. -/
theorem parse_of_named_axis (axis : Axis) {test : NodeTest} {predicates : List Expr}
    (h : parse (axis.name ++ "::" ++ last) = .ok ⟨false, [⟨axis, test, predicates⟩]⟩) :
    parse last = .ok ⟨false, [⟨.child, test, predicates⟩]⟩ := by
  obtain ⟨toks, hspells, hpath⟩ := parse_iff_spells.1 h
  have hplain : Text.isPlainChars axis.name.toList = true := by cases axis <;> decide
  obtain ⟨c, cs, hname, -, -⟩ := Text.isPlainChars_iff.1 hplain
  rw [hname] at hplain
  have htext : (axis.name ++ "::" ++ last).toList = c :: (cs ++ ':' :: ':' :: last.toList) := by
    rw [String.toList_append, String.toList_append, hname]
    simp
  have hends : NameEnds (':' :: ':' :: last.toList) := nameEnds_cons rfl
  obtain ⟨hseparator, hlexeme⟩ := lexeme_of_spelled (spelled_of_isPlainChars hplain) hends.over
  rw [htext] at hspells
  obtain ⟨_, rfl, hcolons⟩ := hspells.behind hseparator hlexeme
  have hcolon : lexeme ':' (':' :: last.toList) = .ok ⟨.colonColon, [':', ':'], last.toList⟩ := rfl
  obtain ⟨more, rfl, hbehind⟩ := hcolons.behind rfl hcolon
  have hstep := (Derives.relPath_of_path hpath).singleton.without_axis rfl
  exact parse_iff_spells.2 ⟨more, hbehind, .relative (.step hstep)⟩

end ElementLocator.XPath
