import ElementLocator.Proofs.XPath.Pieces
import ElementLocator.Proofs.XPath.CursorGrammar

/-!
# Where errors show

A query is read to its end or rejected, by the cursor as by the readers, and the error shows at a character where a
token starts or cannot be read, or at the end of the query.
-/

namespace ElementLocator.XPath

variable {cs rest : List Char} {placed : List Placed} {offset : Nat}

/-- There are no more tokens than characters. -/
theorem length_le_of_tokens (h : tokens offset cs = .ok placed) : placed.length ≤ cs.length := by
  fun_induction tokens offset cs generalizing placed with
  | case1 =>
    cases h
    exact Nat.le_refl _
  | case2 offset c rest hc ih => exact (ih h).trans (Nat.le_succ _)
  | case3 => cases h
  | case4 offset c rest hc l hl ih =>
    obtain ⟨later, hlater, rfl⟩ := exists_of_map_cons h
    exact (Nat.succ_le_succ (ih hlater)).trans (lexeme_rest_length hl)

/-- A token that is over in front of a text is over in front of its beginning. -/
theorem Over.of_append {t : Token} {spelling : List Char} (h : Over t spelling (cs ++ rest)) : Over t spelling cs := by
  cases cs with
  | nil => exact over_nil
  | cons c cs => exact over_cons.2 (over_cons.1 h)

/-- A text that has no tokens starts with one that does, and behind that is a character where no token can be read. -/
theorem exists_of_tokens_error {e : Error} (h : tokens offset cs = .error e) :
    ∃ before c after, cs = before ++ c :: after ∧ (∃ placed, tokens offset before = .ok placed) ∧
      isSeparator c = false ∧ lexeme c after = .error e.fault ∧ e.position = offset + byteLength before := by
  fun_induction tokens offset cs with
  | case1 => cases h
  | case2 offset c rest hc ih =>
    obtain ⟨before, d, after, rfl, ⟨placed, hplaced⟩, hd, hread, hposition⟩ := ih h
    refine ⟨c :: before, d, after, rfl, ⟨placed, ?_⟩, hd, hread, ?_⟩
    · rw [tokens, if_pos hc, hplaced]
    · rw [hposition, byteLength, Nat.add_assoc]
  | case3 offset c rest hc fault hl =>
    cases h
    refine ⟨[], c, rest, rfl, ⟨[], by rw [tokens]⟩, ?_, hl, rfl⟩
    simpa using hc
  | case4 offset c rest hc l hl ih =>
    cases hrest : tokens (offset + byteLength l.spelling) l.rest with
    | ok later =>
      rw [hrest] at h
      cases h
    | error error =>
      rw [hrest] at h
      cases h
      obtain ⟨before, d, after, hsplit, ⟨placed, hplaced⟩, hd, hread, hposition⟩ := ih hrest
      obtain ⟨hspelled, hover⟩ := lexeme_sound hl
      rw [hsplit] at hover
      refine ⟨l.spelling ++ before, d, after, ?_, ⟨⟨l.token, offset⟩ :: placed, ?_⟩, hd, hread, ?_⟩
      · rw [lexeme_split hl, hsplit, List.append_assoc]
      · rw [tokens_spelled hspelled hover.of_append, hplaced]
        rfl
      · rw [hposition, byteLength_append, Nat.add_assoc]

/-- The byte of the query where an error shows. -/
inductive ErrorPlace (query : String) : Error → Prop
  /-- The first byte of a character with which a token starts. -/
  | token {placed : List Placed} {t : Placed} {before after : List Char} {c : Char} (fault : Fault) :
      tokens 0 query.toList = .ok placed → t ∈ placed → query.toList = before ++ c :: after →
      t.offset = byteLength before → ErrorPlace query ⟨fault, t.offset⟩
  /-- The first byte of a character with which no token starts, behind a text that consists of tokens. -/
  | unread {placed : List Placed} {before after : List Char} {c : Char} {fault : Fault} :
      query.toList = before ++ c :: after → tokens 0 before = .ok placed → isSeparator c = false →
      lexeme c after = .error fault → ErrorPlace query ⟨fault, byteLength before⟩
  /-- Behind the last byte of a query that has tokens. -/
  | ending {placed : List Placed} (fault : Fault) :
      tokens 0 query.toList = .ok placed → placed ≠ [] → ErrorPlace query ⟨fault, query.utf8ByteSize⟩
  | empty : tokens 0 query.toList = .ok [] → ErrorPlace query ⟨.emptyQuery, 0⟩

/-- An error at a token or at the end of the query shows at a place of the query. -/
theorem errorPlace_of_located {query : String} {error : Error} (h : tokens 0 query.toList = .ok placed)
    (hne : placed ≠ []) (hlocated : Cursor.Located ⟨placed, query.utf8ByteSize⟩ error) : ErrorPlace query error := by
  obtain ⟨fault, position⟩ := error
  obtain hstop | ⟨t, ht, hposition⟩ := hlocated
  · obtain rfl : position = query.utf8ByteSize := hstop
    exact .ending fault h hne
  · obtain rfl : t.offset = position := hposition
    obtain ⟨before, c, after, hsplit, hoffset⟩ := exists_character h ht
    exact .token fault h ht hsplit (by rw [hoffset, Nat.zero_add])

/-- With more of a budget than the query has characters, the cursor reads the query to its end or rejects it. So it is
never moved behind the last token or back in front of the first one, every step, primary expression and nested
expression takes a token, as does every round behind which another one follows, and what comes out is what the readers
come to. -/
theorem parse_finishes {query : String} {budget : Nat} (h : query.length < budget) :
    (∃ path, parse query = .ok path ∧ Cursor.parse budget query = .ok path) ∨
    ∃ error, parse query = .error error ∧ Cursor.parse budget query = .error (.rejected error) ∧
      ErrorPlace query error := by
  rw [parse, Cursor.parse]
  cases htokens : tokens 0 query.toList with
  | error error =>
    obtain ⟨fault, position⟩ := error
    obtain ⟨before, c, after, hsplit, ⟨placed, hplaced⟩, hc, hread, hposition⟩ := exists_of_tokens_error htokens
    obtain rfl : position = byteLength before := by rw [← Nat.zero_add (byteLength before)]; exact hposition
    exact .inr ⟨_, rfl, rfl, .unread hsplit hplaced hc hread⟩
  | ok placed =>
    by_cases hne : placed = []
    · subst hne
      exact .inr ⟨_, rfl, rfl, .empty htokens⟩
    · have hlength := length_le_of_tokens htokens
      rw [String.length_toList] at hlength
      rw [byteLength_toList]
      obtain ⟨path, hread, hrun⟩ | ⟨error, hread, hrun, hlocated⟩ :=
        Cursor.ofTokens_cases (s := ⟨placed, query.utf8ByteSize⟩) hne (Nat.lt_of_le_of_lt hlength h)
      · exact .inl ⟨path, hread, hrun⟩
      · exact .inr ⟨error, hread, hrun, errorPlace_of_located htokens hne hlocated⟩

/-- At the end of the query the cursor steps back onto the sign that no name follows. -/
theorem parse_finishes_without_name :
    Cursor.parse 4 "a[@" = .error (.rejected ⟨.expectedAttributeName, 2⟩) ∧
      ErrorPlace "a[@" ⟨.expectedAttributeName, 2⟩ := by
  have hrejected : parse "a[@" = .error ⟨.expectedAttributeName, 2⟩ := by cbv
  have hlength : "a[@".length < 4 := by decide
  obtain ⟨path, hread, -⟩ | ⟨error, hread, hrun, hplace⟩ := parse_finishes hlength
  · rw [hrejected] at hread
    cases hread
  · rw [hrejected] at hread
    cases hread
    exact ⟨hrun, hplace⟩

end ElementLocator.XPath
