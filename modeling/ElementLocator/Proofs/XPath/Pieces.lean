import ElementLocator.Proofs.XPath.Joining

/-!
# Queries cut into tokens

A query that has tokens is white space and then pieces, each of which is the spelling of one token and the white space
behind it. The other way round, pieces in a row are read back as their tokens if no piece goes on with the token in
front of it. White space goes on with no token, so there can be more of it wherever no token is spelled across the
place, and the tokens stay the same.
-/

namespace ElementLocator.XPath

variable {cs before after white lead : List Char} {placed : List Placed} {offset place width : Nat}

/-! ### Bytes -/

@[simp] theorem byteLength_append (cs rest : List Char) :
    byteLength (cs ++ rest) = byteLength cs + byteLength rest := by
  induction cs with
  | nil => simp [byteLength]
  | cons c cs ih => simp [byteLength, ih, Nat.add_assoc]

/-- A text with characters has bytes. -/
theorem byteLength_pos (h : cs ≠ []) : 0 < byteLength cs := by
  cases cs with
  | nil => exact absurd rfl h
  | cons c cs =>
    have hc := c.utf8Size_pos
    rw [byteLength]
    omega

/-- Of two texts at the front of a third, one is at the front of the other if it has no more bytes. -/
theorem prefix_of_byteLength_le {text : List Char} (hcs : cs <+: text) (hbefore : before <+: text)
    (hle : byteLength cs ≤ byteLength before) : cs <+: before := by
  rcases List.prefix_or_prefix_of_prefix hcs hbefore with h | ⟨more, rfl⟩
  · exact h
  · rw [byteLength_append] at hle
    cases more with
    | nil => rw [List.append_nil]
    | cons c more =>
      have hpos := byteLength_pos (List.cons_ne_nil c more)
      omega

/-- A string has the bytes of its characters. -/
theorem utf8ByteSize_ofList (cs : List Char) : (String.ofList cs).utf8ByteSize = byteLength cs := by
  induction cs with
  | nil => rfl
  | cons c cs ih =>
    rw [String.ofList_cons, String.utf8ByteSize_append, String.utf8ByteSize_singleton, ih, byteLength]

/-- The characters of a string have its bytes. -/
theorem byteLength_toList (s : String) : byteLength s.toList = s.utf8ByteSize := by
  rw [← utf8ByteSize_ofList, String.ofList_toList]

/-! ### Pieces -/

/-- A token as it is spelled in a text, and the white space behind it. -/
structure Piece where
  token : Token
  spelling : List Char
  gap : List Char

/-- White space between tokens. -/
def IsGap (cs : List Char) : Prop := ∀ c ∈ cs, isSeparator c = true

/-- The characters of a piece. -/
def Piece.text (p : Piece) : List Char := p.spelling ++ p.gap

/-- The text that is cut into the pieces. -/
def textOf (pieces : List Piece) : List Char := pieces.flatMap Piece.text

/-- The tokens of pieces the first of which stands at the given byte. -/
def placedFrom (offset : Nat) : List Piece → List Placed
  | [] => []
  | p :: later => ⟨p.token, offset⟩ :: placedFrom (offset + byteLength p.text) later

/-- The pieces can stand in a row: each is spelled as it should be, and what stands behind does not go on with it. -/
def Fits : List Piece → Prop
  | [] => True
  | p :: later =>
    Spelled p.spelling p.token ∧ IsGap p.gap ∧ Over p.token p.spelling (p.gap ++ textOf later) ∧ Fits later

variable {pieces : List Piece}

/-- The text of pieces is that of the first and then that of the others. -/
theorem textOf_cons (p : Piece) (later : List Piece) : textOf (p :: later) = p.text ++ textOf later :=
  List.flatMap_cons

/-- A gap in front moves the offsets of the tokens and leaves the tokens. -/
theorem tokens_gap (h : IsGap lead) (cs : List Char) :
    tokens offset (lead ++ cs) = tokens (offset + byteLength lead) cs := by
  induction lead generalizing offset with
  | nil => rfl
  | cons c lead ih =>
    have hc := h c List.mem_cons_self
    have hlead : IsGap lead := fun x hx => h x (List.mem_cons_of_mem c hx)
    rw [List.cons_append, tokens, if_pos hc, ih hlead, byteLength, Nat.add_assoc]

/-- A spelling that is over is read, and what stands behind it is read on its own. -/
theorem tokens_spelled {t : Token} {spelling rest : List Char} (h : Spelled spelling t) (hover : Over t spelling rest) :
    tokens offset (spelling ++ rest) = (tokens (offset + byteLength spelling) rest).map (⟨t, offset⟩ :: ·) := by
  obtain ⟨c, cs, rfl⟩ := List.exists_cons_of_ne_nil h.ne_nil
  obtain ⟨hc, hread⟩ := lexeme_of_spelled h hover
  exact tokens_of_lexeme hc hread offset

/-- Pieces that can stand in a row are read back as their tokens. -/
theorem tokens_textOf (h : Fits pieces) : tokens offset (textOf pieces) = .ok (placedFrom offset pieces) := by
  induction pieces generalizing offset with
  | nil => rw [textOf, List.flatMap_nil, tokens, placedFrom]
  | cons p later ih =>
    obtain ⟨hspelled, hgap, hover, hlater⟩ := h
    rw [textOf_cons, Piece.text, List.append_assoc, tokens_spelled hspelled hover, tokens_gap hgap, ih hlater,
      placedFrom, Piece.text, byteLength_append, Nat.add_assoc]
    rfl

/-- A text has tokens exactly if it is white space and then pieces that can stand in a row. -/
theorem tokens_eq_ok_iff : tokens offset cs = .ok placed ↔ ∃ lead pieces, IsGap lead ∧ Fits pieces ∧
    cs = lead ++ textOf pieces ∧ placed = placedFrom (offset + byteLength lead) pieces := by
  constructor
  · intro h
    fun_induction tokens offset cs generalizing placed with
    | case1 =>
      cases h
      exact ⟨[], [], by simp [IsGap], trivial, rfl, rfl⟩
    | case2 offset c rest hc ih =>
      obtain ⟨lead, pieces, hlead, hfits, rfl, rfl⟩ := ih h
      refine ⟨c :: lead, pieces, List.forall_mem_cons.2 ⟨hc, hlead⟩, hfits, rfl, ?_⟩
      rw [byteLength, Nat.add_assoc]
    | case3 => cases h
    | case4 offset c rest hc l hl ih =>
      obtain ⟨later, hlater, rfl⟩ := exists_of_map_cons h
      obtain ⟨gap, pieces, hgap, hfits, htext, rfl⟩ := ih hlater
      obtain ⟨hspelled, hover⟩ := lexeme_sound hl
      rw [htext] at hover
      refine ⟨[], ⟨l.token, l.spelling, gap⟩ :: pieces, by simp [IsGap], ⟨hspelled, hgap, hover, hfits⟩, ?_, ?_⟩
      · rw [lexeme_split hl, htext, textOf_cons, Piece.text, List.append_assoc]
        rfl
      · rw [placedFrom, Piece.text, byteLength_append, Nat.add_assoc]
        rfl
  · rintro ⟨lead, pieces, hlead, hfits, rfl, rfl⟩
    rw [tokens_gap hlead, tokens_textOf hfits]

/-! ### Places -/

/-- No token is in front of the offset where the pieces begin. -/
theorem le_of_mem_placedFrom {t : Placed} (h : t ∈ placedFrom offset pieces) : offset ≤ t.offset := by
  induction pieces generalizing offset with
  | nil => cases h
  | cons p later ih =>
    rcases List.mem_cons.1 h with rfl | h
    · exact Nat.le_refl offset
    · exact Nat.le_trans (Nat.le_add_right _ _) (ih h)

/-- The tokens stand one behind the other. -/
theorem placedFrom_pairwise (h : Fits pieces) : (placedFrom offset pieces).Pairwise (·.offset < ·.offset) := by
  induction pieces generalizing offset with
  | nil => exact .nil
  | cons p later ih =>
    obtain ⟨hspelled, -, -, hlater⟩ := h
    refine .cons ?_ (ih hlater)
    intro t ht
    have hle := le_of_mem_placedFrom ht
    have hpos := byteLength_pos hspelled.ne_nil
    rw [Piece.text, byteLength_append] at hle
    show offset < t.offset
    omega

/-- A token stands behind the pieces in front of its own. -/
theorem exists_of_mem_placedFrom {t : Placed} (h : t ∈ placedFrom offset pieces) :
    ∃ front p behind, pieces = front ++ p :: behind ∧ t = ⟨p.token, offset + byteLength (textOf front)⟩ := by
  induction pieces generalizing offset with
  | nil => cases h
  | cons p later ih =>
    rcases List.mem_cons.1 h with rfl | h
    · exact ⟨[], p, later, rfl, rfl⟩
    · obtain ⟨front, q, behind, rfl, rfl⟩ := ih h
      refine ⟨p :: front, q, behind, rfl, ?_⟩
      rw [textOf_cons, byteLength_append, Nat.add_assoc]

/-- Pieces that fit still do without those at the front. -/
theorem Fits.behind {front : List Piece} (h : Fits (front ++ pieces)) : Fits pieces := by
  induction front with
  | nil => exact h
  | cons p front ih => exact ih h.2.2.2

/-- A token stands at the first byte of a character. -/
theorem exists_character {t : Placed} (h : tokens offset cs = .ok placed) (ht : t ∈ placed) :
    ∃ before c after, cs = before ++ c :: after ∧ t.offset = offset + byteLength before := by
  obtain ⟨lead, pieces, -, hfits, rfl, rfl⟩ := tokens_eq_ok_iff.1 h
  obtain ⟨front, p, behind, rfl, rfl⟩ := exists_of_mem_placedFrom ht
  obtain ⟨c, spelling, hspelling⟩ := List.exists_cons_of_ne_nil hfits.behind.1.ne_nil
  refine ⟨lead ++ textOf front, c, spelling ++ (p.gap ++ textOf behind), ?_, ?_⟩
  · simp [textOf, Piece.text, hspelling]
  · rw [byteLength_append, Nat.add_assoc]

/-! ### More white space -/

/-- No token of the pieces, the first of which stands at the offset, is spelled across the place. -/
def Spares (place : Nat) : Nat → List Piece → Prop
  | _, [] => True
  | offset, p :: later =>
    (place ≤ offset ∨ offset + byteLength p.spelling ≤ place) ∧ Spares place (offset + byteLength p.text) later

/-- The token where that many bytes are put in at the place. -/
def Placed.shift (place width : Nat) (t : Placed) : Placed :=
  if place ≤ t.offset then { t with offset := t.offset + width } else t

/-- Shifting offsets keeps the tokens. -/
theorem map_token_shift (placed : List Placed) :
    (placed.map (Placed.shift place width)).map Placed.token = placed.map Placed.token := by
  rw [List.map_map]
  refine List.map_congr_left fun t _ => ?_
  rw [Function.comp_apply, Placed.shift]
  split <;> rfl

/-- Pieces placed behind a place shift as a whole. -/
theorem placedFrom_shift (h : place ≤ offset) (pieces : List Piece) :
    placedFrom (offset + width) pieces = (placedFrom offset pieces).map (Placed.shift place width) := by
  induction pieces generalizing offset with
  | nil => rfl
  | cons p later ih =>
    have hlater := ih (Nat.le_add_right_of_le (k := byteLength p.text) h)
    rw [placedFrom, placedFrom, List.map_cons, Placed.shift, if_pos h, ← hlater, Nat.add_right_comm]

/-- White space in front of what stands behind a token leaves the token over. -/
theorem Over.insert {t : Token} {spelling : List Char} (h : Over t spelling (before ++ after)) (hwhite : IsGap white) :
    Over t spelling (before ++ (white ++ after)) := by
  cases before with
  | cons c before => exact over_cons.2 (over_cons.1 h)
  | nil =>
    cases white with
    | nil => exact h
    | cons c white => exact over_cons.2 (not_goesOn_of_isSeparator (hwhite c List.mem_cons_self))

/-- Pieces behind white space that spell the text with more white space at the place, and their tokens are the given
ones with only the offsets shifted. -/
def Widens (offset : Nat) (lead : List Char) (pieces : List Piece) (before white after : List Char) : Prop :=
  ∃ wider more, IsGap wider ∧ Fits more ∧ before ++ (white ++ after) = wider ++ textOf more ∧
    placedFrom (offset + byteLength wider) more = (placedFrom (offset + byteLength lead) pieces).map
      (Placed.shift (offset + byteLength before) (byteLength white))

/-- The place is in the white space in front of all pieces. -/
theorem widens_lead (hlead : IsGap lead) (hfits : Fits pieces) (hwhite : IsGap white)
    (htext : lead ++ textOf pieces = before ++ after) (hinLead : before <+: lead) :
    Widens offset lead pieces before white after := by
  obtain ⟨rest, rfl⟩ := hinLead
  rw [List.append_assoc, List.append_cancel_left_eq] at htext
  subst htext
  have hwider : IsGap (before ++ (white ++ rest)) := by
    intro c hc
    rcases List.mem_append.1 hc with hc | hc
    · exact hlead c (List.mem_append_left rest hc)
    rcases List.mem_append.1 hc with hc | hc
    · exact hwhite c hc
    · exact hlead c (List.mem_append_right before hc)
  refine ⟨before ++ (white ++ rest), pieces, hwider, hfits, by simp, ?_⟩
  have hplace : offset + byteLength before ≤ offset + byteLength (before ++ rest) := by
    rw [byteLength_append]
    omega
  have hoffset : offset + byteLength (before ++ (white ++ rest)) =
      offset + byteLength (before ++ rest) + byteLength white := by
    simp only [byteLength_append]
    omega
  rw [hoffset, placedFrom_shift hplace]

/-- The place is behind the spelling of the first piece. -/
theorem Widens.cons {p : Piece} (hlead : IsGap lead) (hspelled : Spelled p.spelling p.token)
    (hover : Over p.token p.spelling (before ++ after)) (hwhite : IsGap white)
    (h : Widens (offset + byteLength lead + byteLength p.spelling) p.gap pieces before white after) :
    Widens offset lead (p :: pieces) (lead ++ (p.spelling ++ before)) white after := by
  obtain ⟨gap, more, hgap, hmore, htext, hplaced⟩ := h
  have hbehind := hover.insert hwhite
  rw [htext] at hbehind
  refine ⟨lead, ⟨p.token, p.spelling, gap⟩ :: more, hlead, ⟨hspelled, hgap, hbehind, hmore⟩, ?_, ?_⟩
  · rw [textOf_cons, Piece.text, List.append_assoc, List.append_assoc, List.append_assoc, htext]
  · have hpos := byteLength_pos hspelled.ne_nil
    have hfirst : ¬ offset + byteLength (lead ++ (p.spelling ++ before)) ≤ offset + byteLength lead := by
      simp only [byteLength_append]
      omega
    rw [placedFrom, placedFrom, List.map_cons, Placed.shift, if_neg hfirst, Piece.text, Piece.text]
    simp only [byteLength_append, ← Nat.add_assoc] at hplaced ⊢
    rw [hplaced]

/-- By induction on the pieces: the place is in the white space in front of them, or behind the first spelling. -/
theorem widens_of_spares (hlead : IsGap lead) (hfits : Fits pieces) (hwhite : IsGap white)
    (htext : lead ++ textOf pieces = before ++ after)
    (hspares : Spares (offset + byteLength before) (offset + byteLength lead) pieces) :
    Widens offset lead pieces before white after := by
  induction pieces generalizing lead before offset with
  | nil =>
    rw [textOf, List.flatMap_nil, List.append_nil] at htext
    exact widens_lead hlead hfits hwhite (by simpa [textOf] using htext) ⟨after, htext.symm⟩
  | cons p later ih =>
    by_cases hinLead : before <+: lead
    · exact widens_lead hlead hfits hwhite htext hinLead
    obtain ⟨hspelled, hgap, hover, hlater⟩ := hfits
    obtain ⟨hplace, hsparesLater⟩ := hspares
    obtain ⟨inner, rfl⟩ := (List.prefix_or_prefix_of_prefix ⟨_, htext⟩ (List.prefix_append before after)).resolve_right
      hinLead
    have hne : inner ≠ [] := by
      rintro rfl
      exact hinLead (by rw [List.append_nil])
    have hpos := byteLength_pos hne
    rw [textOf_cons, Piece.text, List.append_assoc, List.append_assoc, List.append_cancel_left_eq] at htext
    have hspelling : p.spelling <+: inner := by
      refine prefix_of_byteLength_le ⟨_, htext⟩ (List.prefix_append inner after) ?_
      rw [byteLength_append] at hplace
      omega
    obtain ⟨inner, rfl⟩ := hspelling
    rw [List.append_assoc, List.append_cancel_left_eq] at htext
    rw [htext] at hover
    refine Widens.cons hlead hspelled hover hwhite (ih hgap hlater htext ?_)
    simpa only [Piece.text, byteLength_append, ← Nat.add_assoc] using hsparesLater

/-! ### Queries -/

/-- How a text is cut into its tokens: white space, and then for each token its spelling and the white space behind it,
from the byte where the token stands to the next one. The spelling spells that token alone, and no longer spelling
stands there. -/
structure CutInto (text : List Char) (placed : List Placed) (lead : List Char) (pieces : List Piece) : Prop where
  text_eq : text = lead ++ textOf pieces
  placed_eq : placed = placedFrom (byteLength lead) pieces
  lead_gap : IsGap lead
  gaps : ∀ p ∈ pieces, IsGap p.gap
  spelled : ∀ p ∈ pieces, ∀ t, Spelled p.spelling t ↔ t = p.token
  longest : ∀ front p behind, pieces = front ++ p :: behind →
    ∀ spelling t, Spelled spelling t → spelling <+: p.text ++ textOf behind → spelling.length ≤ p.spelling.length

/-- A text that is made of fitting pieces is cut into them. -/
theorem cutInto_of_fits (hlead : IsGap lead) (hfits : Fits pieces) :
    CutInto (lead ++ textOf pieces) (placedFrom (byteLength lead) pieces) lead pieces := by
  have hpiece : ∀ front p behind, pieces = front ++ p :: behind → Fits (p :: behind) := by
    rintro front p behind rfl
    exact hfits.behind
  refine ⟨rfl, rfl, hlead, ?_, ?_, ?_⟩
  · intro p hp
    obtain ⟨front, behind, heq⟩ := List.append_of_mem hp
    exact (hpiece front p behind heq).2.1
  · intro p hp t
    obtain ⟨front, behind, heq⟩ := List.append_of_mem hp
    have hspelled := (hpiece front p behind heq).1
    exact ⟨fun h => h.unique hspelled, fun h => h ▸ hspelled⟩
  · intro front p behind heq spelling t hspelling hfront
    obtain ⟨hspelled, -, hover, -⟩ := hpiece front p behind heq
    rw [Piece.text, List.append_assoc] at hfront
    exact hspelled.length_le hover hspelling hfront

/-- Queries with the same tokens are read as the same path. -/
theorem parse_congr {query other : String} {others : List Placed} (h : tokens 0 query.toList = .ok placed)
    (hother : tokens 0 other.toList = .ok others) (hsame : others.map Placed.token = placed.map Placed.token)
    (path : LocationPath) : parse other = .ok path ↔ parse query = .ok path := by
  rw [parse, parse, h, hother]
  show LocationPath.ofTokens _ others = .ok path ↔ LocationPath.ofTokens _ placed = .ok path
  have hlength : others.length = placed.length := by simpa using congrArg List.length hsame
  rw [ofTokens_ok_iff, ofTokens_ok_iff, hsame, ← List.length_pos_iff, ← List.length_pos_iff, hlength]

/-- The tokens of a query stand one behind the other at the first bytes of characters, and cut the query into their
spellings and white space. Where no token is spelled across a place, white space can be put in: the tokens are the same,
those behind the place are shifted by its bytes, and the query is read as the same path. -/
theorem tokens_cut_query {query : String} (h : tokens 0 query.toList = .ok placed) :
    placed.Pairwise (·.offset < ·.offset) ∧
    (∀ t ∈ placed, String.Pos.Raw.IsValid query ⟨t.offset⟩ ∧ t.offset < query.utf8ByteSize) ∧
    ∃ lead pieces, CutInto query.toList placed lead pieces ∧
      ∀ before white after : String, query = before ++ after → IsGap white.toList →
        Spares before.utf8ByteSize (byteLength lead) pieces →
        tokens 0 (before ++ white ++ after).toList =
          .ok (placed.map (Placed.shift before.utf8ByteSize white.utf8ByteSize)) ∧
        ∀ path, parse (before ++ white ++ after) = .ok path ↔ parse query = .ok path := by
  obtain ⟨lead, pieces, hlead, hfits, htext, hplaced⟩ := tokens_eq_ok_iff.1 h
  rw [Nat.zero_add] at hplaced
  subst hplaced
  refine ⟨placedFrom_pairwise hfits, ?_, lead, pieces, htext ▸ cutInto_of_fits hlead hfits, ?_⟩
  · intro t ht
    obtain ⟨before, c, after, hsplit, hoffset⟩ := exists_character h ht
    have hbytes := congrArg byteLength hsplit
    have hpos := byteLength_pos (List.cons_ne_nil c after)
    rw [byteLength_toList, byteLength_append] at hbytes
    rw [Nat.zero_add] at hoffset
    refine ⟨String.Pos.Raw.isValid_iff_exists_append.2 ⟨String.ofList before, String.ofList (c :: after), ?_, ?_⟩, ?_⟩
    · rw [← String.ofList_append, ← hsplit, String.ofList_toList]
    · ext
      rw [hoffset]
      exact (utf8ByteSize_ofList before).symm
    · omega
  · rintro before white after rfl hwhite hspares
    rw [String.toList_append] at htext
    have hspares' : Spares (0 + byteLength before.toList) (0 + byteLength lead) pieces := by
      rwa [Nat.zero_add, Nat.zero_add, byteLength_toList]
    obtain ⟨wider, more, hwider, hmore, hmoreText, hmorePlaced⟩ :=
      widens_of_spares hlead hfits hwhite htext.symm hspares'
    have htokens : tokens 0 (before ++ white ++ after).toList =
        .ok ((placedFrom (byteLength lead) pieces).map (Placed.shift before.utf8ByteSize white.utf8ByteSize)) := by
      simp only [Nat.zero_add, byteLength_toList] at hmorePlaced
      rw [String.append_assoc, String.toList_append, String.toList_append, hmoreText, ← hmorePlaced, tokens_gap hwider,
        tokens_textOf hmore, Nat.zero_add]
    exact ⟨htokens, parse_congr h htokens (map_token_shift _)⟩

/-- A name with a point in it, a literal of three characters and four bytes, and a number that starts with a point. -/
theorem tokens_cut_query_points :
    ∃ placed, tokens 0 " //a.b['é'= .0]".toList = .ok placed ∧ placed.map Placed.offset = [1, 3, 6, 7, 11, 13, 15] ∧
      placed.Pairwise (·.offset < ·.offset) ∧
      (∀ t ∈ placed, String.Pos.Raw.IsValid " //a.b['é'= .0]" ⟨t.offset⟩ ∧ t.offset < " //a.b['é'= .0]".utf8ByteSize) ∧
      ∃ lead pieces, CutInto " //a.b['é'= .0]".toList placed lead pieces ∧
        ∀ before white after : String, " //a.b['é'= .0]" = before ++ after → IsGap white.toList →
          Spares before.utf8ByteSize (byteLength lead) pieces →
          tokens 0 (before ++ white ++ after).toList =
            .ok (placed.map (Placed.shift before.utf8ByteSize white.utf8ByteSize)) ∧
          ∀ path, parse (before ++ white ++ after) = .ok path ↔ parse " //a.b['é'= .0]" = .ok path := by
  have htokens : tokens 0 " //a.b['é'= .0]".toList = .ok
      [⟨.doubleSlash, 1⟩, ⟨.name "a.b", 3⟩, ⟨.leftBracket, 6⟩, ⟨.literal "é", 7⟩, ⟨.equals, 11⟩,
        ⟨.number (.finite false 0 0), 13⟩, ⟨.rightBracket, 15⟩] := by
    cbv
  exact ⟨_, htokens, rfl, tokens_cut_query htokens⟩

end ElementLocator.XPath
