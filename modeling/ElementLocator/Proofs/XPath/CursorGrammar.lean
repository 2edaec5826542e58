import ElementLocator.Proofs.XPath.CursorRun

/-!
# The cursor reads the grammar

Construct by construct a run follows its reader. The readers have bounds of their own, on the depth of nesting and on the
length of repetitions, and the runs have a budget. Neither is ever used up while tokens are left, so the tokens that are
left carry every induction: a round of a repetition and a nested expression have fewer of them.
-/

namespace ElementLocator.XPath.Cursor

variable {α β : Type} {s : Stream} {pos limit budget bound most : Nat} {rest : List Placed} {token : Token}

/-- More budget than tokens is at least one. -/
theorem exists_succ_of_length_lt (h : rest.length < budget) : ∃ k, budget = k + 1 :=
  Nat.exists_eq_succ_of_ne_zero (Nat.ne_zero_of_lt h)

/-- Items that are read behind given ones. -/
def behind (given : List α) (x : Except Error (List α × List Placed)) : Except Error (List α × List Placed) :=
  x.map fun r => (given ++ r.1, r.2)

/-- Nothing given in front changes nothing. -/
theorem behind_nil (x : Except Error (List α × List Placed)) : behind [] x = x := by
  cases x <;> rfl

/-- What is given in front can be given in two parts. -/
theorem behind_append (given front : List α) (x : Except Error (List α × List Placed)) :
    behind given (x >>= fun r => .ok (front ++ r.1, r.2)) = behind (given ++ front) x := by
  cases x with
  | error error => rfl
  | ok r => simp [behind, bind, Except.bind, Except.map]

/-- What is given in front is there for what follows. -/
theorem behind_bind (given : List α) (x : Except Error (List α × List Placed))
    (f : List α × List Placed → Except Error (β × List Placed)) :
    behind given x >>= f = x >>= fun r => f (given ++ r.1, r.2) := by
  cases x <;> rfl

/-! ### Items -/

section Items

variable {item : Run β} {itemReader : Grammar.Reader β} {join : α → β → α}

/-- Every item behind the token is a round, by induction on the budget. The reader also stops where its bound is used up,
and there no token is left. -/
theorem itemRounds_agree (further : Nat → α → Grammar.Reader α) {given : α} (hitem : Follows s limit item itemReader)
    (hshortens : Shortens itemReader)
    (hleave : ∀ bound given rest, Grammar.front? rest ≠ some token → further bound given rest = .ok (given, rest))
    (htake : ∀ bound given offset later, further (bound + 1) given (⟨token, offset⟩ :: later) =
      itemReader later >>= fun r => further bound (join given r.1) r.2)
    (hat : At s pos rest) (hlimit : rest.length ≤ limit) (hbound : rest.length ≤ bound)
    (hbudget : rest.length < budget) :
    Agrees s (further bound given rest) (loop (itemRound s token item join) budget given pos) := by
  induction budget generalizing given pos rest bound with
  | zero => exact absurd hbudget (Nat.not_lt_zero _)
  | succ budget ih =>
    by_cases hfront : Grammar.front? rest = some token
    · obtain ⟨offset, later, rfl⟩ := front?_eq_some.1 hfront
      obtain ⟨bound, rfl⟩ := Nat.exists_eq_succ_of_ne_zero (Nat.ne_zero_of_lt hbound)
      rw [List.length_cons] at hlimit hbound hbudget
      rw [htake]
      obtain ⟨next, more, pos', hread, hrun, hmore⟩ | ⟨error, hread, hrun, hlocated⟩ :=
        (hitem _ _ hat.next hlimit).cases
      · have hshort := hshortens _ _ _ hread
        have hlt := hshortens.lt hat.next hread hmore
        have hround : itemRound s token item join given pos = .ok (.yield (join given next), pos') := by
          rw [itemRound, eat_then hat rfl, run_bind hrun]
          rfl
        rw [loop_yield hround (by omega), hread]
        show Agrees s (further bound (join given next) more) _
        exact ih hmore (by omega) (by omega) (by omega)
      · have hround : itemRound s token item join given pos = .error (.rejected error) := by
          rw [itemRound, eat_then hat rfl, run_bind_error hrun]
        rw [loop_failed hround, hread]
        exact .rejected hlocated
    · have hround : itemRound s token item join given pos = .ok (.done given, pos) := by
        rw [itemRound, eat_else token hat hfront]
        rfl
      rw [hleave _ given rest hfront, loop_done hround]
      exact .answered hat

end Items

/-! ### Expressions -/

section Expressions

/-- A run and a reader that can stand for the expressions nested in other ones. The run follows the reader wherever fewer
tokens than the limit are left, which is enough behind the token that opens the nesting. -/
structure Nests (s : Stream) (limit budget : Nat) (nested : Run Expr) (reader : Grammar.Reader Expr) : Prop where
  follows : Follows s limit nested reader
  sound : Grammar.Sound reader Derives.Disjunction
  ending : reader [] = .error (Grammar.faultAt s.stop [] (.expectedExpression none))
  limit_le : limit ≤ budget

/-- A nested reading takes at least one token. -/
theorem Nests.shortens {nested : Run Expr} {reader : Grammar.Reader Expr} (h : Nests s limit budget nested reader) :
    Shortens reader :=
  shortens_of_sound h.sound fun _ _ hwritten => hwritten.opens.ne_nil

variable {nested : Run Expr} {reader : Grammar.Reader Expr} {name : String} {offset offset' : Nat}

/-- Where the nested reader rejects the first argument, the query is rejected for the same reason. If the bound of the
arguments is used up, no token is left, and both miss an expression at the end. -/
theorem Nests.arguments_rejected (h : Nests s limit most nested reader) {error : Error} {bound : Nat}
    (hread : reader rest = .error error) (hbound : rest.length ≤ bound) :
    Grammar.arguments s.stop reader bound rest = .error error := by
  cases bound with
  | zero =>
    obtain rfl := List.eq_nil_of_length_eq_zero (Nat.le_zero.1 hbound)
    rw [h.ending] at hread
    cases hread
    rfl
  | succ bound =>
    rw [Grammar.arguments, hread]
    rfl

/-- Behind an argument that is not the last one stands a comma. -/
theorem Nests.arguments_rejected_behind (h : Nests s limit most nested reader) {first : Expr} {more : List Placed}
    {error : Error} {bound : Nat} (hread : reader rest = .ok (first, more))
    (hclosing : Grammar.front? more ≠ some .rightParen) (hcomma : Grammar.expect s.stop .comma more = .error error)
    (hbound : rest.length ≤ bound) : Grammar.arguments s.stop reader bound rest = .error error := by
  have hshort := h.shortens _ _ _ hread
  obtain ⟨bound, rfl⟩ := Nat.exists_eq_succ_of_ne_zero (Nat.ne_zero_of_lt (Nat.lt_of_lt_of_le hshort hbound))
  simp only [Grammar.arguments, hread, bind, Except.bind]
  split
  · exact absurd rfl hclosing
  · rw [hcomma]

/-- One round reads an argument and takes the parenthesis that closes the call or a comma. Where the reader has used up
its bound no token is left, and there it rejects the query as the nested reader does. -/
theorem argumentRound_cases (given : List Expr) (h : Nests s limit most nested reader) (hat : At s pos rest)
    (hlimit : rest.length < limit) :
    (∃ first offset later pos', reader rest = .ok (first, ⟨.rightParen, offset⟩ :: later) ∧
      argumentRound s nested given pos = .ok (.done (given ++ [first]), pos') ∧ At s pos' later) ∨
    (∃ first offset later pos', reader rest = .ok (first, ⟨.comma, offset⟩ :: later) ∧
      argumentRound s nested given pos = .ok (.yield (given ++ [first]), pos') ∧ At s pos' later) ∨
    ∃ error, (∀ bound, rest.length ≤ bound → Grammar.arguments s.stop reader bound rest = .error error) ∧
      argumentRound s nested given pos = .error (.rejected error) ∧ Located s error := by
  obtain ⟨first, more, pos', hread, hrun, hmore⟩ | ⟨error, hread, hrun, hlocated⟩ :=
    (h.follows pos rest hat hlimit).cases
  · by_cases hclosing : Grammar.front? more = some .rightParen
    · obtain ⟨offset, later, rfl⟩ := front?_eq_some.1 hclosing
      refine .inl ⟨first, offset, later, pos' + 1, hread, ?_, hmore.next⟩
      rw [argumentRound, run_bind hrun, eat_then hmore rfl]
      rfl
    obtain ⟨offset, later, rfl, hlater, -, hcomma⟩ | ⟨error, hcomma, hrunComma, hlocated⟩ := expect_cases hmore .comma
    · refine .inr (.inl ⟨first, offset, later, pos' + 1, hread, ?_, hlater⟩)
      rw [argumentRound, run_bind hrun, eat_else _ hmore hclosing]
      exact run_bind hcomma _
    · refine .inr (.inr ⟨error, fun _ => h.arguments_rejected_behind hread hclosing hcomma, ?_, hlocated⟩)
      rw [argumentRound, run_bind hrun, eat_else _ hmore hclosing]
      exact run_bind_error hrunComma _
  · exact .inr (.inr ⟨error, fun _ => h.arguments_rejected hread, run_bind_error hrun _, hlocated⟩)

/-- Reading arguments and going round for them agree, whatever arguments are given already. By induction on the bound of
the reader. -/
theorem argumentRounds_agree (given : List Expr) (h : Nests s limit most nested reader) (hat : At s pos rest)
    (hlimit : rest.length < limit) (hbound : rest.length ≤ bound) (hbudget : rest.length < budget) :
    Agrees s (behind given (Grammar.arguments s.stop reader bound rest))
      (loop (argumentRound s nested) budget given pos) := by
  induction budget generalizing given pos rest bound with
  | zero => exact absurd hbudget (Nat.not_lt_zero _)
  | succ budget ih =>
    obtain ⟨first, offset, later, pos', hread, hround, hlater⟩ | ⟨first, offset, later, pos', hread, hround, hlater⟩ |
      ⟨error, hread, hround, hlocated⟩ := argumentRound_cases given h hat hlimit
    · have hshort := h.shortens _ _ _ hread
      obtain ⟨bound, rfl⟩ := Nat.exists_eq_succ_of_ne_zero (Nat.ne_zero_of_lt (Nat.lt_of_lt_of_le hshort hbound))
      rw [loop_done hround, Grammar.arguments, hread]
      exact .answered hlater
    · have hshort := h.shortens _ _ _ hread
      obtain ⟨bound, rfl⟩ := Nat.exists_eq_succ_of_ne_zero (Nat.ne_zero_of_lt (Nat.lt_of_lt_of_le hshort hbound))
      rw [List.length_cons] at hshort
      have hlt : pos < pos' := by
        have hbefore := hat.add_length
        have hbehind := hlater.add_length
        omega
      rw [loop_yield hround hlt, Grammar.arguments, hread]
      show Agrees s (behind given (Grammar.arguments s.stop reader bound later >>= fun r =>
        .ok ([first] ++ r.1, r.2))) _
      rw [behind_append]
      exact ih _ hlater (by omega) (by omega) (by omega)
    · rw [loop_failed hround, hread bound hbound]
      exact .rejected hlocated

/-- Reading the arguments of a call and running for them agree. -/
theorem arguments_agree (h : Nests s limit budget nested reader) (hat : At s pos rest) (hlimit : rest.length < limit) :
    Agrees s (match rest with
      | ⟨.rightParen, _⟩ :: later => .ok ([], later)
      | _ => Grammar.arguments s.stop reader rest.length rest) (arguments s budget nested pos) := by
  rw [arguments]
  split
  · rw [eat_then hat rfl]
    exact .answered hat.next
  · next hclosing =>
    rw [eat_else _ hat (front?_ne hclosing), ← behind_nil (Grammar.arguments _ _ _ _)]
    exact argumentRounds_agree [] h hat hlimit (Nat.le_refl _) (Nat.lt_of_lt_of_le hlimit h.limit_le)

/-- A call reads its arguments and then checks how many there are. -/
theorem call_of_name {function : Function} (hname : Function.ofName? name = some function) (stop offset : Nat)
    (ts : List Placed) :
    Grammar.call stop reader name offset ts = (match ts with
      | ⟨.rightParen, _⟩ :: rest => .ok ([], rest)
      | _ => Grammar.arguments stop reader ts.length ts) >>= fun r =>
        if r.1.length < function.least || function.most?.any (· < r.1.length) then
          .error ⟨.argumentCount name function.least function.shownMost r.1.length, offset⟩
        else .ok (.call function r.1, r.2) := by
  rw [Grammar.call, hname]
  cases ts with
  | nil => rfl
  | cons t later =>
    obtain ⟨t, place⟩ := t
    cases t <;> rfl

/-- A call whose name has been taken and whose opening parenthesis comes next. -/
theorem call_agrees (h : Nests s limit budget nested reader)
    (hat : At s pos (⟨.name name, offset⟩ :: ⟨.leftParen, offset'⟩ :: rest)) (hlimit : rest.length < limit) :
    Agrees s (Grammar.call s.stop reader name offset rest) (call s budget nested name (pos + 1)) := by
  rw [call, run_bind get_run, Nat.add_sub_cancel]
  cases hname : Function.ofName? name with
  | none =>
    rw [Grammar.call, hname]
    show Agrees s _ (rejectAt s pos (.unknownFunction name) (pos + 1))
    exact rejectAt_agrees hat _ _
  | some function =>
    rw [call_of_name hname]
    dsimp only
    rw [run_bind (expect_take hat.next)]
    refine (arguments_agree h hat.next.next hlimit).bind ?_
    intro given pos' more _ hmore
    dsimp only
    split
    · exact rejectAt_agrees hat _ _
    · exact .answered hmore

/-- Reading an attribute and running for it agree. Where there is nothing behind the sign, the run steps back onto
it. -/
theorem attributeValue_agrees (hat : At s pos (⟨.at, offset⟩ :: rest)) :
    Agrees s (Grammar.primary s.stop reader (⟨.at, offset⟩ :: rest)) (attributeValue s (pos + 1)) := by
  cases rest with
  | nil =>
    rw [attributeValue, run_bind (advance_none hat.next)]
    show Agrees s _ ((stepBack >>= fun _ => reject s .expectedAttributeName : Run Expr) (pos + 1))
    rw [run_bind stepBack_run]
    exact reject_agrees hat _
  | cons t later =>
    obtain ⟨t, offset'⟩ := t
    rw [attributeValue, run_bind (advance_some hat.next)]
    cases t
    case name name => exact .answered hat.next.next
    all_goals
      show Agrees s _ ((stepBack >>= fun _ => reject s .expectedAttributeName : Run Expr) (pos + 1 + 1))
      rw [run_bind stepBack_run]
      exact reject_agrees hat.next _

/-- A primary expression takes at least one token. -/
theorem Nests.primary_shortens (h : Nests s limit budget nested reader) : Shortens (Grammar.primary s.stop reader) :=
  shortens_of_sound (Grammar.primary_sound h.sound) fun _ _ hwritten => hwritten.opens.ne_nil

/-- The run for a primary expression follows its reader. -/
theorem primary_follows (h : Nests s limit budget nested reader) :
    Follows s (limit + 1) (primary s budget nested) (Grammar.primary s.stop reader) := by
  refine progressing_follows ?_ h.primary_shortens
  intro pos rest hat hlimit
  cases rest with
  | nil =>
    rw [run_bind (advance_none hat)]
    show Agrees s _ ((rejectTaken s none .expectedExpression : Run Expr) pos)
    exact rejectTaken_none hat _
  | cons t later =>
    obtain ⟨t, offset⟩ := t
    rw [List.length_cons, Nat.add_lt_add_iff_right] at hlimit
    rw [run_bind (advance_some hat)]
    cases t
    case number value => exact .answered hat.next
    case literal text => exact .answered hat.next
    case leftParen =>
      refine (h.follows (pos + 1) later hat.next hlimit).bind ?_
      intro inner pos' more _ hmore
      exact expect_bind hmore .rightParen fun later hlater => .answered hlater
    case name name =>
      show Agrees s _ ((peek s >>= fun found => if found = some .leftParen then call s budget nested name
        else rejectTaken s (some (.name name)) .expectedExpression : Run Expr) (pos + 1))
      rw [run_bind (peek_run hat.next)]
      split
      · next hopening =>
        obtain ⟨offset', behind, rfl⟩ := front?_eq_some.1 hopening
        exact call_agrees h hat (Nat.lt_of_succ_lt hlimit)
      · next hopening =>
        cases later with
        | nil => exact rejectTaken_some hat _
        | cons t behind =>
          obtain ⟨t, offset'⟩ := t
          cases t
          case leftParen => exact absurd rfl hopening
          all_goals exact rejectTaken_some hat _
    case «at» => exact attributeValue_agrees hat
    all_goals
      show Agrees s _ ((rejectTaken s (some _) .expectedExpression : Run Expr) (pos + 1))
      exact rejectTaken_some hat _

/-- The run for a comparison follows its reader. -/
theorem comparison_follows (h : Nests s limit budget nested reader) :
    Follows s (limit + 1) (comparison s budget nested) (Grammar.comparison s.stop reader) := by
  intro pos rest hat hlimit
  refine (primary_follows h pos rest hat hlimit).bind ?_
  intro left pos' more hread hmore
  have hshort := h.primary_shortens _ _ _ hread
  dsimp only
  split
  · rw [List.length_cons] at hshort
    rw [eat_then hmore rfl]
    refine (primary_follows h _ _ hmore.next (by omega)).bind ?_
    intro right pos'' last _ hlast
    exact .answered hlast
  · rw [List.length_cons] at hshort
    rw [eat_else .equals hmore (front?_cons_ne (by decide)), eat_then hmore rfl]
    refine (primary_follows h _ _ hmore.next (by omega)).bind ?_
    intro right pos'' last _ hlast
    exact .answered hlast
  · next hequals hnotEquals =>
    rw [eat_else _ hmore (front?_ne hequals), eat_else _ hmore (front?_ne hnotEquals)]
    exact .answered hmore

/-- A chain ends where the keyword does not come next. -/
theorem chainRest_leave {keyword : String} {join : Expr → Expr → Expr} {left : Expr}
    (h : Grammar.front? rest ≠ some (.name keyword)) :
    Grammar.chainRest keyword join reader bound left rest = .ok (left, rest) := by
  cases bound with
  | zero => rfl
  | succ bound =>
    unfold Grammar.chainRest
    split
    · next word offset later =>
      exact if_neg fun heq => h (congrArg (some ∘ Token.name) heq)
    · rfl

/-- The run for a chain follows its reader if the run for an item does. -/
theorem chain_follows {keyword : String} {join : Expr → Expr → Expr} {item : Run Expr}
    (hitem : Follows s (limit + 1) item reader) (hshortens : Shortens reader) (hbudget : limit ≤ budget) :
    Follows s (limit + 1) (chain s keyword join item budget) (Grammar.chain keyword join reader) := by
  intro pos rest hat hlimit
  refine (hitem pos rest hat hlimit).bind ?_
  intro first pos' more hread hmore
  have hshort := hshortens _ _ _ hread
  refine itemRounds_agree (Grammar.chainRest keyword join reader) hitem hshortens (fun _ _ _ => chainRest_leave) ?_
    hmore (by omega) (Nat.le_refl _) (by omega)
  intro bound left offset later
  rw [Grammar.chainRest, if_pos rfl]

/-- The run for a disjunction follows its reader. -/
theorem disjunction_follows (h : Nests s limit budget nested reader) :
    Follows s (limit + 1) (disjunction s budget nested) (Grammar.disjunction s.stop reader) := by
  have hcomparison : Shortens (Grammar.comparison s.stop reader) :=
    shortens_of_sound (Grammar.comparison_sound h.sound) fun _ _ hwritten => hwritten.opens.ne_nil
  have hconjunction : Shortens (Grammar.chain "and" .and (Grammar.comparison s.stop reader)) :=
    shortens_of_sound (Grammar.conjunction_sound h.sound) fun _ _ hwritten => hwritten.opens.ne_nil
  exact chain_follows (chain_follows (comparison_follows h) hcomparison h.limit_le) hconjunction h.limit_le

end Expressions

/-- No expression is read where no token is left. -/
theorem expression_nil (stop depth : Nat) :
    Grammar.expression stop depth [] = .error (Grammar.faultAt stop [] (.expectedExpression none)) := by
  cases depth <;> rfl

/-- An expression takes at least one token. -/
theorem expression_shortens (stop depth : Nat) : Shortens (Grammar.expression stop depth) :=
  shortens_of_sound (Grammar.expression_sound depth) fun _ _ hwritten => hwritten.opens.ne_nil

/-- By induction on the depth. A reader that has no depth left is followed where no token is left. -/
theorem expression_follows {depth : Nat} (hbudget : depth < budget) :
    Follows s (depth + 1) (expression s budget) (Grammar.expression s.stop depth) := by
  induction depth generalizing budget with
  | zero =>
    obtain ⟨budget, rfl⟩ := Nat.exists_eq_succ_of_ne_zero (Nat.ne_zero_of_lt hbudget)
    have hnests : Nests s 0 budget (expression s budget) (Grammar.expression s.stop 0) :=
      ⟨nofun, Grammar.expression_sound 0, expression_nil _ _, Nat.zero_le budget⟩
    intro pos rest hat hlimit
    obtain rfl := List.eq_nil_of_length_eq_zero (Nat.lt_one_iff.1 hlimit)
    exact progressing_follows (disjunction_follows hnests) (expression_shortens s.stop 1) pos [] hat hlimit
  | succ depth ih =>
    obtain ⟨budget, rfl⟩ := Nat.exists_eq_succ_of_ne_zero (Nat.ne_zero_of_lt hbudget)
    have hless : depth < budget := Nat.lt_of_succ_lt_succ hbudget
    have hnests : Nests s (depth + 1) budget (expression s budget) (Grammar.expression s.stop depth) :=
      ⟨ih hless, Grammar.expression_sound depth, expression_nil _ _, hless⟩
    exact progressing_follows (disjunction_follows hnests) (expression_shortens s.stop (depth + 1))

/-! ### Steps -/

section Steps

variable {rounds : Nat}

/-- Predicates end where no bracket comes next. -/
theorem predicates_leave (h : Grammar.front? rest ≠ some .leftBracket) (stop bound : Nat) :
    Grammar.predicates stop bound rest = .ok ([], rest) := by
  cases bound with
  | zero => rfl
  | succ bound =>
    unfold Grammar.predicates
    split
    · exact absurd rfl h
    · rfl

/-- A predicate behind its opening bracket. -/
def readPredicate (stop : Nat) : Grammar.Reader Expr := fun ts => do
  let (inner, more) ← Grammar.expression stop ts.length ts
  let later ← Grammar.expect stop .rightBracket more
  .ok (inner, later)

/-- A predicate takes at least one token. -/
theorem readPredicate_shortens (stop : Nat) : Shortens (readPredicate stop) := by
  intro ts answer rest h
  obtain ⟨⟨inner, more⟩, hinner, h⟩ := Grammar.bind_ok h
  obtain ⟨later, hclosing, h⟩ := Grammar.bind_ok h
  cases h
  obtain ⟨offset, rfl⟩ := Grammar.expect_ok hclosing
  have hshort := expression_shortens _ _ _ _ _ hinner
  rw [List.length_cons] at hshort
  omega

/-- The run for a predicate follows its reader. -/
theorem predicate_follows (hbudget : limit ≤ budget) : Follows s limit (predicate s budget) (readPredicate s.stop) := by
  intro pos rest hat hlimit
  have hexpression := expression_follows (s := s) (Nat.lt_of_lt_of_le hlimit hbudget)
  refine (hexpression pos rest hat (Nat.lt_succ_self _)).bind ?_
  intro inner pos' more _ hmore
  exact expect_bind hmore .rightBracket fun later hlater => .answered hlater

/-- A predicate more is read in front of the other ones. -/
theorem predicates_take (given : List Expr) (stop bound offset : Nat) (later : List Placed) :
    behind given (Grammar.predicates stop (bound + 1) (⟨.leftBracket, offset⟩ :: later)) =
      readPredicate stop later >>= fun r => behind (given ++ [r.1]) (Grammar.predicates stop bound r.2) := by
  rw [Grammar.predicates, readPredicate]
  cases Grammar.expression stop later.length later with
  | error error => rfl
  | ok r =>
    obtain ⟨inner, more⟩ := r
    simp only [bind, Except.bind]
    cases Grammar.expect stop .rightBracket more with
    | error error => rfl
    | ok rest => exact behind_append given [inner] _

/-- Reading predicates and going round for them agree. -/
theorem predicates_agree (hat : At s pos rest) (hlimit : rest.length < budget) :
    Agrees s (Grammar.predicates s.stop rest.length rest)
      (loop (itemRound s .leftBracket (predicate s budget) fun given next => given ++ [next]) budget [] pos) := by
  rw [← behind_nil (Grammar.predicates _ _ _)]
  refine itemRounds_agree (fun bound given ts => behind given (Grammar.predicates s.stop bound ts))
    (predicate_follows (Nat.le_refl budget)) (readPredicate_shortens s.stop) ?_ ?_ hat (Nat.le_of_lt hlimit)
    (Nat.le_refl _) hlimit
  · intro bound given ts hfront
    rw [predicates_leave hfront]
    simp [behind, Except.map]
  · intro bound given offset later
    exact predicates_take given s.stop bound offset later

/-- Without a name and two colons in front the cursor stays where it is. -/
theorem axis_agrees (hat : At s pos rest) : Agrees s (Grammar.axis rest) (axis s pos) := by
  rw [axis, run_bind (peek_run hat), run_bind (peekAt_run hat 1)]
  cases rest with
  | nil => exact .answered hat
  | cons t later =>
    obtain ⟨t, offset⟩ := t
    cases t
    case name name =>
      cases later with
      | nil => exact .answered hat
      | cons t' later =>
        obtain ⟨t', offset'⟩ := t'
        cases t'
        case colonColon =>
          rw [Grammar.axis]
          dsimp only [Grammar.front?, List.head?_cons, Option.map_some, List.getElem?_cons_succ,
            List.getElem?_cons_zero]
          cases Axis.ofName? name with
          | some direction =>
            have hmove : move s 2 pos = .ok ((), pos + 2) := move_run hat.next.next.1
            dsimp only
            rw [run_bind hmove]
            exact .answered hat.next.next
          | none =>
            dsimp only
            exact reject_agrees hat _
        all_goals exact .answered hat
    all_goals exact .answered hat

/-- Reading a node test that starts with a name and running for it agree. -/
theorem namedTest_agrees {name : String} {offset : Nat} (hat : At s pos (⟨.name name, offset⟩ :: rest)) :
    Agrees s (Grammar.nodeTest s.stop (⟨.name name, offset⟩ :: rest)) (namedTest s name (pos + 1)) := by
  rw [namedTest, run_bind (peek_run hat.next)]
  by_cases hfront : Grammar.front? rest = some .leftParen
  · rw [if_pos hfront]
    obtain ⟨offset', later, rfl⟩ := front?_eq_some.1 hfront
    rw [Grammar.nodeTest]
    split
    · rw [run_bind (expect_take hat.next)]
      exact expect_bind hat.next.next .rightParen fun later hlater => .answered hlater
    · exact reject_agrees hat.next _
  · rw [if_neg hfront]
    have hread : Grammar.nodeTest s.stop (⟨.name name, offset⟩ :: rest) = .ok (.name name, rest) := by
      cases rest with
      | nil => rfl
      | cons t later =>
        obtain ⟨t, place⟩ := t
        cases t
        case leftParen => exact absurd rfl hfront
        all_goals rfl
    rw [hread]
    exact .answered hat.next

/-- Reading a node test and running for it agree. -/
theorem nodeTest_agrees (hat : At s pos rest) : Agrees s (Grammar.nodeTest s.stop rest) (nodeTest s pos) := by
  cases rest with
  | nil =>
    rw [nodeTest, run_bind (advance_none hat)]
    show Agrees s _ ((rejectTaken s none .expectedStep : Run NodeTest) pos)
    exact rejectTaken_none hat _
  | cons t later =>
    obtain ⟨t, offset⟩ := t
    rw [nodeTest, run_bind (advance_some hat)]
    cases t
    case star => exact .answered hat.next
    case name name => exact namedTest_agrees hat
    case «at» =>
      show Agrees s _ ((reject s .attributeStep : Run NodeTest) (pos + 1))
      exact reject_agrees hat.next _
    all_goals
      show Agrees s _ ((rejectTaken s (some _) .expectedStep : Run NodeTest) (pos + 1))
      exact rejectTaken_some hat _

/-- A step takes at least one token. -/
theorem step_shortens (stop : Nat) : Shortens (Grammar.step stop) :=
  shortens_of_sound Grammar.step_sound fun _ _ hwritten => hwritten.ne_nil

/-- The run for a step follows its reader. -/
theorem step_follows : Follows s budget (step s budget) (Grammar.step s.stop) := by
  refine progressing_follows ?_ (step_shortens s.stop)
  intro pos rest hat hlimit
  unfold Grammar.step
  split
  · rw [eat_then hat rfl]
    exact .answered hat.next
  · rw [eat_else .dot hat (front?_cons_ne (by decide)), eat_then hat rfl]
    exact .answered hat.next
  · next hdot hdotDot =>
    rw [eat_else _ hat (front?_ne hdot), eat_else _ hat (front?_ne hdotDot)]
    refine (axis_agrees hat).bind ?_
    intro direction place more hread hmore
    obtain ⟨front, rfl, -⟩ := Grammar.axis_sound _ _ _ hread
    refine (nodeTest_agrees hmore).bind ?_
    intro test place last hread hlast
    obtain ⟨middle, rfl, -⟩ := Grammar.nodeTest_sound _ _ _ hread
    rw [List.length_append, List.length_append] at hlimit
    refine (predicates_agree hlast (by omega)).bind ?_
    intro given place behind _ hbehind
    exact .answered hbehind

section Slashes

variable {given between : List Step} {first : Step} {separator : Token} {offset : Nat} {more later : List Placed}

/-- A round at a slash reads one more step. -/
theorem stepRound_slash (hslash : Derives.Slash separator between) (hat : At s pos (⟨separator, offset⟩ :: later)) :
    stepRound s budget given pos =
      (step s budget >>= fun next => pure (.yield (given ++ between ++ [next]))) (pos + 1) := by
  cases hslash with
  | single =>
    rw [stepRound, eat_else .doubleSlash hat (front?_cons_ne (by decide)), eat_then hat rfl, List.append_nil]
  | double => rw [stepRound, eat_then hat rfl]

/-- A slash that was taken is followed by a step. -/
theorem stepRounds_slash (hslash : Derives.Slash separator between) (hat : At s pos (⟨separator, offset⟩ :: later)) :
    loop (stepRound s budget) (rounds + 1) given pos =
      (step s budget >>= fun next => loop (stepRound s budget) rounds (given ++ between ++ [next])) (pos + 1) := by
  have hround : stepRound s budget given pos = _ := stepRound_slash hslash hat
  cases hstep : step s budget (pos + 1) with
  | error failure =>
    rw [run_bind_error hstep] at hround ⊢
    exact loop_failed hround
  | ok r =>
    rw [run_bind hstep] at hround ⊢
    exact loop_yield hround (Nat.lt_of_succ_lt (progressing_lt hstep))

/-- So does the reader of steps. -/
theorem steps_slash {stop : Nat} (hslash : Derives.Slash separator between)
    (hread : Grammar.step stop rest = .ok (first, ⟨separator, offset⟩ :: later)) :
    Grammar.steps stop (bound + 1) rest =
      Grammar.steps stop bound later >>= fun r => .ok ([first] ++ between ++ r.1, r.2) := by
  rw [Grammar.steps, hread]
  cases hslash <;> rfl

/-- A step that no slash follows is the last one. -/
theorem steps_last {stop : Nat} (hread : Grammar.step stop rest = .ok (first, more))
    (hdouble : Grammar.front? more ≠ some .doubleSlash) (hsingle : Grammar.front? more ≠ some .slash) :
    Grammar.steps stop (bound + 1) rest = .ok ([first], more) := by
  rw [Grammar.steps, hread]
  cases more with
  | nil => rfl
  | cons t later =>
    obtain ⟨t, offset⟩ := t
    cases t
    case slash => exact absurd rfl hsingle
    case doubleSlash => exact absurd rfl hdouble
    all_goals rfl

/-- Reading steps and going round for them agree, whatever steps are given already. By induction on the bound of the
reader. -/
theorem steps_agree (given : List Step) (hat : At s pos rest) (hbound : rest.length ≤ bound)
    (hrounds : rest.length < rounds) (hbudget : rest.length < budget) :
    Agrees s (behind given (Grammar.steps s.stop bound rest))
      ((step s budget >>= fun first => loop (stepRound s budget) rounds (given ++ [first])) pos) := by
  induction bound generalizing given pos rest rounds with
  | zero =>
    obtain rfl := List.eq_nil_of_length_eq_zero (Nat.le_zero.1 hbound)
    obtain ⟨hrun, hlocated⟩ := (step_follows pos [] hat hbudget).failed
    rw [run_bind_error hrun]
    exact .rejected hlocated
  | succ bound ih =>
    obtain ⟨rounds, rfl⟩ := exists_succ_of_length_lt hrounds
    obtain ⟨first, more, pos', hread, hrun, hmore⟩ | ⟨error, hread, hrun, hlocated⟩ :=
      (step_follows pos rest hat hbudget).cases
    · have hshort := step_shortens _ _ _ _ hread
      have hbehind : ∀ {separator between offset later}, Derives.Slash separator between →
          more = ⟨separator, offset⟩ :: later → Agrees s (behind given (Grammar.steps s.stop (bound + 1) rest))
            ((step s budget >>= fun first => loop (stepRound s budget) (rounds + 1) (given ++ [first])) pos) := by
        rintro separator between offset later hslash rfl
        rw [List.length_cons] at hshort
        rw [run_bind hrun, steps_slash hslash hread, stepRounds_slash hslash hmore, behind_append, ← List.append_assoc]
        exact ih _ hmore.next (by omega) (by omega) (by omega)
      by_cases hdouble : Grammar.front? more = some .doubleSlash
      · obtain ⟨offset, later, heq⟩ := front?_eq_some.1 hdouble
        exact hbehind .double heq
      by_cases hsingle : Grammar.front? more = some .slash
      · obtain ⟨offset, later, heq⟩ := front?_eq_some.1 hsingle
        exact hbehind .single heq
      have hround : stepRound s budget (given ++ [first]) pos' = .ok (.done (given ++ [first]), pos') := by
        rw [stepRound, eat_else _ hmore hdouble, eat_else _ hmore hsingle]
        rfl
      rw [run_bind hrun, steps_last hread hdouble hsingle, loop_done hround]
      exact .answered hmore
    · rw [Grammar.steps, hread, run_bind_error hrun]
      exact .rejected hlocated

end Slashes

/-- The steps behind given ones make up a path. -/
theorem path_agrees (given : List Step) (absolute : Bool) (hat : At s pos rest) (hlimit : rest.length < budget) :
    Agrees s (Grammar.steps s.stop rest.length rest >>= fun r => .ok (LocationPath.mk absolute (given ++ r.1), r.2))
      ((steps s budget given >>= fun all => pure (LocationPath.mk absolute all)) pos) := by
  rw [← behind_bind given _ fun r => .ok (LocationPath.mk absolute r.1, r.2)]
  refine (steps_agree given hat (Nat.le_refl _) hlimit hlimit).bind ?_
  intro all place more _ hmore
  exact .answered hmore

/-- Reading a location path and running for it agree. -/
theorem locationPath_agrees (hat : At s pos rest) (hlimit : rest.length < budget) :
    Agrees s (Grammar.locationPath s.stop rest) (locationPath s budget pos) := by
  unfold Grammar.locationPath locationPath
  split
  · rw [eat_then hat rfl]
    exact path_agrees [.anywhere] true hat.next (Nat.lt_of_succ_lt hlimit)
  · rw [eat_else .doubleSlash hat (front?_cons_ne (by decide)), eat_then hat rfl, run_bind (peek_run hat.next)]
    exact .answered hat.next
  · next offset later hmore =>
    obtain ⟨t, later, rfl⟩ := List.exists_cons_of_ne_nil hmore
    rw [eat_else .doubleSlash hat (front?_cons_ne (by decide)), eat_then hat rfl, run_bind (peek_run hat.next)]
    exact path_agrees [] true hat.next (Nat.lt_of_succ_lt hlimit)
  · next hdouble _ hsingle =>
    rw [eat_else _ hat (front?_ne hdouble), eat_else _ hat (front?_ne hsingle)]
    exact path_agrees [] false hat hlimit

end Steps

/-! ### Queries -/

/-- The tokens of a query are read as a path or rejected by both alike. -/
theorem ofTokens_cases (hne : s.tokens ≠ []) (hbudget : s.tokens.length < budget) :
    (∃ path, LocationPath.ofTokens s.stop s.tokens = .ok path ∧ ofTokens s budget = .ok path) ∨
    ∃ error, LocationPath.ofTokens s.stop s.tokens = .error error ∧ ofTokens s budget = .error (.rejected error) ∧
      Located s error := by
  obtain ⟨tokens, stop⟩ := s
  obtain ⟨t, later, rfl⟩ := List.exists_cons_of_ne_nil hne
  have hat : At ⟨t :: later, stop⟩ 0 (t :: later) := ⟨Nat.zero_le _, rfl⟩
  rw [ofTokens, if_neg hne]
  unfold LocationPath.ofTokens
  dsimp only
  obtain ⟨path, more, pos, hread, hrun, hmore⟩ | ⟨error, hread, hrun, hlocated⟩ :=
    (locationPath_agrees hat hbudget).cases
  · have hfront := hmore.getElem? 0
    rw [Nat.add_zero, ← List.head?_eq_getElem?] at hfront
    rw [hread, hrun]
    simp only [bind, Except.bind]
    rw [hfront]
    cases more with
    | nil => exact .inl ⟨path, rfl, rfl⟩
    | cons t behind => exact .inr ⟨_, rfl, rfl, .inr ⟨t, hmore.mem, rfl⟩⟩
  · rw [hread, hrun]
    exact .inr ⟨error, rfl, rfl, hlocated⟩

end ElementLocator.XPath.Cursor
