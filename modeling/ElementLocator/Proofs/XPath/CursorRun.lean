import ElementLocator.Proofs.XPath.Acceptance
import ElementLocator.Proofs.XPath.Cursor

/-!
# Runs of the cursor follow the readers

A reader hands the rest of the tokens on, a run moves the cursor to where they start. `Agrees` says that both come to
the same: the same answer with the cursor at the rest, or the query is rejected with the same error. So a run that
follows a reader meets none of the checked failures, whatever the budget, as long as there is more of it than tokens.
-/

namespace ElementLocator.XPath.Cursor

variable {α β : Type} {s : Stream} {pos limit budget : Nat} {rest more : List Placed} {t : Placed} {token : Token}

/-- The cursor is in front of these tokens. -/
def At (s : Stream) (pos : Nat) (rest : List Placed) : Prop := pos ≤ s.tokens.length ∧ s.tokens.drop pos = rest

/-- Behind the token under the cursor the cursor is in front of the others. -/
theorem At.next (h : At s pos (t :: rest)) : At s (pos + 1) rest := by
  obtain ⟨-, hdrop⟩ := h
  have hlength := congrArg List.length hdrop
  rw [List.length_drop, List.length_cons] at hlength
  refine ⟨by omega, ?_⟩
  rw [← List.drop_drop, hdrop]
  rfl

/-- What is ahead of the cursor is what is left. -/
theorem At.getElem? (h : At s pos rest) (ahead : Nat) : s.tokens[pos + ahead]? = rest[ahead]? := by
  rw [← h.2, List.getElem?_drop]

/-- The cursor and the tokens that are left add up to all tokens. -/
theorem At.add_length (h : At s pos rest) : pos + rest.length = s.tokens.length := by
  have hlength := congrArg List.length h.2
  rw [List.length_drop] at hlength
  have hle := h.1
  omega

/-- The token under the cursor is one of the tokens. -/
theorem At.mem (h : At s pos (t :: rest)) : t ∈ s.tokens := by
  have hmem : t ∈ s.tokens.drop pos := by
    rw [h.2]
    exact List.mem_cons_self
  exact List.mem_of_mem_drop hmem

/-- The error shows at a token or at the end of the query. -/
def Located (s : Stream) (error : Error) : Prop := error.position = s.stop ∨ ∃ t ∈ s.tokens, t.offset = error.position

/-- A fault at the cursor shows at a token or at the end of the query. -/
theorem At.located (h : At s pos rest) (fault : Fault) : Located s (Grammar.faultAt s.stop rest fault) := by
  cases rest with
  | nil => exact .inl rfl
  | cons t rest => exact .inr ⟨t, h.mem, rfl⟩

/-- What a reader and a run come to is the same. -/
inductive Agrees (s : Stream) : Except Error (α × List Placed) → Except Failure (α × Nat) → Prop
  | rejected {error : Error} : Located s error → Agrees s (.error error) (.error (.rejected error))
  | answered {answer : α} {pos : Nat} {rest : List Placed} :
      At s pos rest → Agrees s (.ok (answer, rest)) (.ok (answer, pos))

/-- The run follows the reader wherever fewer tokens than the limit are left. -/
def Follows (s : Stream) (limit : Nat) (run : Run α) (reader : Grammar.Reader α) : Prop :=
  ∀ pos rest, At s pos rest → rest.length < limit → Agrees s (reader rest) (run pos)

/-- The reader takes at least one token. -/
def Shortens (reader : Grammar.Reader α) : Prop :=
  ∀ ts answer rest, reader ts = .ok (answer, rest) → rest.length < ts.length

/-! ### The token at the front -/

/-- A token is in front exactly if the tokens begin with it. -/
theorem front?_eq_some : Grammar.front? rest = some token ↔ ∃ offset later, rest = ⟨token, offset⟩ :: later := by
  constructor
  · intro h
    cases rest with
    | nil => cases h
    | cons t later =>
      obtain ⟨t, offset⟩ := t
      cases h
      exact ⟨offset, later, rfl⟩
  · rintro ⟨offset, later, rfl⟩
    rfl

/-- Another token in front is not the one looked for. -/
theorem front?_cons_ne {found : Token} {offset : Nat} (h : found ≠ token) :
    Grammar.front? (⟨found, offset⟩ :: rest) ≠ some token := fun heq => h (Option.some.inj heq)

/-- A token is not in front of tokens that do not begin with it. -/
theorem front?_ne (h : ∀ offset later, rest = ⟨token, offset⟩ :: later → False) :
    Grammar.front? rest ≠ some token := by
  rw [Ne, front?_eq_some]
  rintro ⟨offset, later, heq⟩
  exact h offset later heq

/-! ### One after the other -/

/-- A run goes on behind its answer. -/
theorem run_bind {run : Run α} {answer : α} {pos' : Nat} (h : run pos = .ok (answer, pos')) (next : α → Run β) :
    (run >>= next) pos = next answer pos' := by
  show (run pos >>= fun r => next r.1 r.2) = _
  rw [h]
  rfl

/-- A run ends with its failure. -/
theorem run_bind_error {run : Run α} {failure : Failure} (h : run pos = .error failure) (next : α → Run β) :
    (run >>= next) pos = .error failure := by
  show (run pos >>= fun r => next r.1 r.2) = _
  rw [h]
  rfl

/-- Looking at the cursor does not move it. -/
theorem get_run : (get : Run Nat) pos = .ok (pos, pos) := rfl

/-- Reading and running agree step by step. -/
theorem Agrees.bind {x : Except Error (α × List Placed)} {run : Run α}
    {readNext : α × List Placed → Except Error (β × List Placed)} {runNext : α → Run β} (h : Agrees s x (run pos))
    (hnext : ∀ answer pos' rest, x = .ok (answer, rest) → At s pos' rest →
      Agrees s (readNext (answer, rest)) (runNext answer pos')) :
    Agrees s (x >>= readNext) ((run >>= runNext) pos) := by
  show Agrees s (x >>= readNext) (run pos >>= fun r => runNext r.1 r.2)
  generalize hrun : run pos = y at h
  cases h with
  | rejected hlocated => exact .rejected hlocated
  | answered hat => exact hnext _ _ _ rfl hat

/-! ### The cursor -/

/-- What is peeked at is what is left, and the cursor stays. -/
theorem peekAt_run (h : At s pos rest) (ahead : Nat) :
    peekAt s ahead pos = .ok ((rest[ahead]?).map Placed.token, pos) := by
  show Except.ok (((s.tokens[pos + ahead]?).map Placed.token), pos) = _
  rw [h.getElem?]

/-- The token under the cursor is the one in front, and the cursor stays. -/
theorem peek_run (h : At s pos rest) : peek s pos = .ok (Grammar.front? rest, pos) := by
  rw [peek, peekAt_run h, ← List.head?_eq_getElem?]
  rfl

/-- The cursor moves forward unless this brings it behind the last token. -/
theorem move_run {count : Nat} (h : pos + count ≤ s.tokens.length) : move s count pos = .ok ((), pos + count) := by
  show (if pos + count ≤ s.tokens.length then set (pos + count) else throw .behindLast : Run Unit) pos = _
  rw [if_pos h]
  rfl

/-- Advancing takes the token under the cursor. -/
theorem advance_some (h : At s pos (t :: rest)) : advance s pos = .ok (some t.token, pos + 1) := by
  rw [advance, run_bind (peek_run h)]
  show (move s 1 >>= fun _ => pure (some t.token) : Run (Option Token)) pos = _
  rw [run_bind (move_run h.next.1)]
  rfl

/-- There is nothing to take behind the last token. -/
theorem advance_none (h : At s pos []) : advance s pos = .ok (none, pos) := by
  rw [advance, run_bind (peek_run h)]
  rfl

/-- Eating takes the token if it is in front. -/
theorem eat_take (h : At s pos (t :: rest)) (ht : t.token = token) : eat s token pos = .ok (true, pos + 1) := by
  have hfront : Grammar.front? (t :: rest) = some token := congrArg some ht
  rw [eat, run_bind (peek_run h), if_pos hfront, run_bind (move_run h.next.1)]
  rfl

/-- Eating leaves any other token. -/
theorem eat_leave (h : At s pos rest) (hfront : Grammar.front? rest ≠ some token) :
    eat s token pos = .ok (false, pos) := by
  rw [eat, run_bind (peek_run h), if_neg hfront]
  rfl

/-- A run that asks for a token goes on behind it if it is in front. -/
theorem eat_then {yes no : Run α} (h : At s pos (t :: rest)) (ht : t.token = token) :
    (eat s token >>= fun found => if found = true then yes else no) pos = yes (pos + 1) := by
  rw [run_bind (eat_take h ht), if_pos rfl]

/-- A run that asks for a token goes on in front of any other one. -/
theorem eat_else {yes no : Run α} (token : Token) (h : At s pos rest) (hfront : Grammar.front? rest ≠ some token) :
    (eat s token >>= fun found => if found = true then yes else no) pos = no pos := by
  rw [run_bind (eat_leave h hfront), if_neg Bool.false_ne_true]

/-- A rejected query is rejected where the reader says. -/
theorem reject_agrees (h : At s pos rest) (fault : Fault) :
    Agrees s (.error (Grammar.faultAt s.stop rest fault)) ((reject s fault : Run α) pos) := by
  have hfront := h.getElem? 0
  rw [Nat.add_zero, ← List.head?_eq_getElem?] at hfront
  have hrun : (reject s fault : Run α) pos = .error (.rejected (Grammar.faultAt s.stop rest fault)) := by
    show Except.error (Failure.rejected ⟨fault, ((s.tokens[pos]?).map Placed.offset).getD s.stop⟩) = _
    rw [hfront]
    rfl
  rw [hrun]
  exact .rejected (h.located fault)

/-- The query is rejected at a token that is no longer under the cursor. -/
theorem rejectAt_agrees (h : At s pos (t :: rest)) (fault : Fault) (here : Nat) :
    Agrees s (.error ⟨fault, t.offset⟩) ((rejectAt s pos fault : Run α) here) :=
  reject_agrees h fault

/-- Stepping back is safe behind a token. -/
theorem stepBack_run : stepBack (pos + 1) = .ok ((), pos) := rfl

/-- The cursor steps back onto the token that was taken. -/
theorem rejectTaken_some (h : At s pos (t :: rest)) {taken : Token} (fault : Option Token → Fault) :
    Agrees s (.error (Grammar.faultAt s.stop (t :: rest) (fault (some t.token))))
      ((rejectTaken s (some taken) fault : Run α) (pos + 1)) := by
  show Agrees s _ ((stepBack >>= fun _ => peek s >>= fun found => reject s (fault found) : Run α) (pos + 1))
  rw [run_bind stepBack_run, run_bind (peek_run h)]
  exact reject_agrees h _

/-- Rejecting at the end shows the fault at the end of the query. -/
theorem rejectTaken_none (h : At s pos []) (fault : Option Token → Fault) :
    Agrees s (.error (Grammar.faultAt s.stop [] (fault none))) ((rejectTaken s none fault : Run α) pos) := by
  show Agrees s _ ((peek s >>= fun found => reject s (fault found) : Run α) pos)
  rw [run_bind (peek_run h)]
  exact reject_agrees h _

/-- An expected token that is in front is taken. -/
theorem expect_take (h : At s pos (t :: rest)) : expect s t.token pos = .ok ((), pos + 1) := by
  rw [expect, eat_then h rfl]
  rfl

/-- Reading and running agree on an answer or on an error. -/
theorem Agrees.cases {x : Except Error (α × List Placed)} {y : Except Failure (α × Nat)} (h : Agrees s x y) :
    (∃ answer more pos', x = .ok (answer, more) ∧ y = .ok (answer, pos') ∧ At s pos' more) ∨
      ∃ error, x = .error error ∧ y = .error (.rejected error) ∧ Located s error := by
  cases h with
  | rejected hlocated => exact .inr ⟨_, rfl, rfl, hlocated⟩
  | answered hat => exact .inl ⟨_, _, _, rfl, rfl, hat⟩

/-- Where reading ends with an error, running ends with the same one. -/
theorem Agrees.failed {error : Error} {y : Except Failure (α × Nat)} (h : Agrees s (.error error) y) :
    y = .error (.rejected error) ∧ Located s error := by
  cases h with
  | rejected hlocated => exact ⟨rfl, hlocated⟩

/-- The token is taken by the reader and the run alike, or missed by both. -/
theorem expect_cases (h : At s pos rest) (token : Token) :
    (∃ offset later, rest = ⟨token, offset⟩ :: later ∧ At s (pos + 1) later ∧
      Grammar.expect s.stop token rest = .ok later ∧ expect s token pos = .ok ((), pos + 1)) ∨
    ∃ error, Grammar.expect s.stop token rest = .error error ∧ expect s token pos = .error (.rejected error) ∧
      Located s error := by
  by_cases hfront : Grammar.front? rest = some token
  · obtain ⟨offset, later, rfl⟩ := front?_eq_some.1 hfront
    exact .inl ⟨offset, later, rfl, h.next, if_pos rfl, expect_take h⟩
  · have hagrees : Agrees s (.error (Grammar.faultAt s.stop rest (.expected token (Grammar.front? rest))))
        (expect s token pos) := by
      rw [expect, eat_else token h hfront, run_bind (peek_run h)]
      exact reject_agrees h _
    refine .inr ⟨_, ?_, hagrees.failed⟩
    cases rest with
    | nil => rfl
    | cons t later => exact if_neg fun heq => hfront (congrArg some heq)

/-- An expected token decides alike for reading and running. -/
theorem expect_bind (h : At s pos rest) (token : Token) {readNext : List Placed → Except Error (β × List Placed)}
    {run : Run β} (hnext : ∀ later, At s (pos + 1) later → Agrees s (readNext later) (run (pos + 1))) :
    Agrees s (Grammar.expect s.stop token rest >>= readNext) ((expect s token >>= fun _ => run) pos) := by
  obtain ⟨offset, later, -, hlater, hread, hrun⟩ | ⟨error, hread, hrun, hlocated⟩ := expect_cases h token
  · rw [hread, run_bind hrun]
    exact hnext later hlater
  · rw [hread, run_bind_error hrun]
    exact .rejected hlocated

/-- The reader takes at least one token, whatever is written for what it answers. -/
theorem shortens_of_sound {reader : Grammar.Reader α} {Writes : List Token → α → Prop}
    (h : Grammar.Sound reader Writes) (hne : ∀ ts answer, Writes ts answer → ts ≠ []) : Shortens reader := by
  intro ts answer rest hread
  obtain ⟨used, rfl, hused⟩ := h _ _ _ hread
  have hpos := List.length_pos_iff.2 (hne _ _ hused)
  rw [List.length_map] at hpos
  rw [List.length_append]
  omega

/-- Where the reader takes a token the cursor moves on. -/
theorem Shortens.lt {reader : Grammar.Reader α} (h : Shortens reader) {answer : α} {pos' : Nat} (hat : At s pos rest)
    (hread : reader rest = .ok (answer, more)) (hmore : At s pos' more) : pos < pos' := by
  have hshort := h _ _ _ hread
  have hbefore := hat.add_length
  have hbehind := hmore.add_length
  omega

/-- A run that must make progress follows a reader that takes at least one token. -/
theorem progressing_follows {run : Run α} {reader : Grammar.Reader α} (h : Follows s limit run reader)
    (hshortens : Shortens reader) : Follows s limit (progressing run) reader := by
  intro pos rest hat hlength
  rw [progressing, run_bind get_run]
  obtain ⟨answer, more, pos', hread, hrun, hmore⟩ | ⟨error, hread, hrun, hlocated⟩ := (h pos rest hat hlength).cases
  · rw [hread, run_bind hrun, run_bind get_run, if_pos (hshortens.lt hat hread hmore)]
    exact .answered hmore
  · rw [hread, run_bind_error hrun]
    exact .rejected hlocated

/-- A run that must make progress moves the cursor forward. -/
theorem progressing_lt {run : Run α} {answer : α} {pos' : Nat} (h : progressing run pos = .ok (answer, pos')) :
    pos < pos' := by
  rw [progressing, run_bind get_run] at h
  cases hrun : run pos with
  | error failure =>
    rw [run_bind_error hrun] at h
    cases h
  | ok r =>
    rw [run_bind hrun, run_bind get_run] at h
    split at h
    · next hlt =>
      cases h
      exact hlt
    · cases h

section Loops

variable {round : α → Run (ForInStep α)} {given : α} {pos' : Nat}

/-- A last round ends the loop with its answer. -/
theorem loop_done {answer : α} (h : round given pos = .ok (.done answer, pos')) :
    loop round (budget + 1) given pos = .ok (answer, pos') := by
  rw [loop, run_bind get_run, run_bind h]
  rfl

/-- A failed round ends the loop with its failure. -/
theorem loop_failed {failure : Failure} (h : round given pos = .error failure) :
    loop round (budget + 1) given pos = .error failure := by
  rw [loop, run_bind get_run, run_bind_error h]

/-- A round that took a token is followed by the next one. -/
theorem loop_yield {next : α} (h : round given pos = .ok (.yield next, pos')) (hlt : pos < pos') :
    loop round (budget + 1) given pos = loop round budget next pos' := by
  rw [loop, run_bind get_run, run_bind h]
  show ((get : Run Nat) >>= fun here => if pos < here then loop round budget next else throw .noProgress) pos' = _
  rw [run_bind get_run, if_pos hlt]

end Loops

end ElementLocator.XPath.Cursor
