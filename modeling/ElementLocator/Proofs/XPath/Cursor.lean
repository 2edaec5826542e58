import ElementLocator.XPath.Path.Parser
import Mathlib

/-!
# Reading with a cursor

The grammar of location paths once more, read by a cursor that moves over the tokens, forward as tokens are taken and
back by one where an error is to show at the token that was just taken. Nothing in the grammar bounds how often a
repetition goes round or how deep expressions nest, so a run has a budget for both.

What should never happen is checked on the way and has a failure of its own: the cursor moves behind the last token or
in front of the first one, a round or a nested reading takes no token, the budget is used up.
-/

namespace ElementLocator.XPath.Cursor

/-- Why a run gives no answer. Only the first is an error of the query. -/
inductive Failure where
  | rejected (error : Error)
  | behindLast
  | beforeFirst
  | noProgress
  | outOfBudget
  deriving Repr, DecidableEq

/-- The tokens under the cursor, of a query that ends at byte `stop`. -/
structure Stream where
  tokens : List Placed
  stop : Nat

/-- A run from one place of the cursor to another. -/
abbrev Run := StateT Nat (Except Failure)

/-! ### The cursor -/

/-- The token that is so many places ahead. -/
def peekAt (s : Stream) (ahead : Nat) : Run (Option Token) := do
  return (s.tokens[(← get) + ahead]?).map Placed.token

/-- The token under the cursor. -/
def peek (s : Stream) : Run (Option Token) := peekAt s 0

/-- Moves the cursor forward, which must not bring it behind the last token. -/
def move (s : Stream) (count : Nat) : Run Unit := do
  let pos ← get
  if pos + count ≤ s.tokens.length then set (pos + count) else throw .behindLast

/-- Moves the cursor back by one, which must not bring it in front of the first token. -/
def stepBack : Run Unit := do
  let pos ← get
  if 1 ≤ pos then set (pos - 1) else throw .beforeFirst

/-- Takes the token under the cursor if there is one. -/
def advance (s : Stream) : Run (Option Token) := do
  match ← peek s with
  | some token => do
    move s 1
    return some token
  | none => return none

/-- Takes the token under the cursor if it is the given one. -/
def eat (s : Stream) (token : Token) : Run Bool := do
  if (← peek s) = some token then do
    move s 1
    return true
  else return false

/-- Rejects the query with a fault that shows at the token at the place, or at the end. -/
def rejectAt {α : Type} (s : Stream) (pos : Nat) (fault : Fault) : Run α :=
  throw (.rejected ⟨fault, ((s.tokens[pos]?).map Placed.offset).getD s.stop⟩)

/-- Rejects the query at the token under the cursor. -/
def reject {α : Type} (s : Stream) (fault : Fault) : Run α := do
  rejectAt s (← get) fault

/-- Rejects the query at a token that was just taken, or at the end if there was none to take. -/
def rejectTaken {α : Type} (s : Stream) (taken : Option Token) (fault : Option Token → Fault) : Run α := do
  match taken with
  | some _ => stepBack
  | none => pure ()
  reject s (fault (← peek s))

/-- Takes the given token, or rejects the query at whatever stands in its place. -/
def expect (s : Stream) (token : Token) : Run Unit := do
  if ← eat s token then return () else reject s (.expected token (← peek s))

/-- A reading that must take at least one token. -/
def progressing {α : Type} (reading : Run α) : Run α := do
  let start ← get
  let answer ← reading
  if start < (← get) then return answer else throw .noProgress

/-- Goes round until a round is the last one. Every round behind which another one follows must take a token. -/
def loop {α : Type} (round : α → Run (ForInStep α)) : Nat → α → Run α
  | 0, _ => throw .outOfBudget
  | budget + 1, given => do
    let start ← get
    match ← round given with
    | .done answer => return answer
    | .yield given => do
      if start < (← get) then loop round budget given else throw .noProgress

/-! ### Expressions -/

/-- One argument, and whether the call goes on behind it. -/
def argumentRound (s : Stream) (nested : Run Expr) (given : List Expr) : Run (ForInStep (List Expr)) := do
  let argument ← nested
  if ← eat s .rightParen then return .done (given ++ [argument])
  else do
    expect s .comma
    return .yield (given ++ [argument])

/-- All arguments, and the closing parenthesis. -/
def arguments (s : Stream) (budget : Nat) (nested : Run Expr) : Run (List Expr) := do
  if ← eat s .rightParen then return [] else loop (argumentRound s nested) budget []

/-- A function call whose name has just been taken. -/
def call (s : Stream) (budget : Nat) (nested : Run Expr) (name : String) : Run Expr := do
  let namePos := (← get) - 1
  match Function.ofName? name with
  | none => rejectAt s namePos (.unknownFunction name)
  | some function => do
    expect s .leftParen
    let given ← arguments s budget nested
    if given.length < function.least || function.most?.any (· < given.length) then
      rejectAt s namePos (.argumentCount name function.least function.shownMost given.length)
    else return .call function given

/-- An attribute whose sign has just been taken. -/
def attributeValue (s : Stream) : Run Expr := do
  match ← advance s with
  | some (.name name) => return .attribute (Text.lower name)
  | _ => do
    stepBack
    reject s .expectedAttributeName

/-- A number, a literal, an attribute, an expression in parentheses or a function call. -/
def primary (s : Stream) (budget : Nat) (nested : Run Expr) : Run Expr := progressing do
  match ← advance s with
  | some (.number value) => return .number value
  | some (.literal text) => return .literal text
  | some .at => attributeValue s
  | some .leftParen => do
    let inner ← nested
    expect s .rightParen
    return inner
  | some (.name name) => do
    if (← peek s) = some .leftParen then call s budget nested name
    else rejectTaken s (some (.name name)) .expectedExpression
  | taken => rejectTaken s taken .expectedExpression

/-- One primary expression, or two of them with a sign of comparison between. -/
def comparison (s : Stream) (budget : Nat) (nested : Run Expr) : Run Expr := do
  let left ← primary s budget nested
  if ← eat s .equals then do
    let right ← primary s budget nested
    return .compare false left right
  else if ← eat s .notEquals then do
    let right ← primary s budget nested
    return .compare true left right
  else return left

/-- One more item if the token is there, joined to what is given. -/
def itemRound {α β : Type} (s : Stream) (token : Token) (item : Run β) (join : α → β → α) (given : α) :
    Run (ForInStep α) := do
  if ← eat s token then do
    let next ← item
    return .yield (join given next)
  else return .done given

/-- Items with the keyword between them, joined from the left. -/
def chain (s : Stream) (keyword : String) (join : Expr → Expr → Expr) (item : Run Expr) (budget : Nat) : Run Expr := do
  let first ← item
  loop (itemRound s (.name keyword) item join) budget first

/-- Conjunctions with `or` between them, each of them of comparisons with `and` between. -/
def disjunction (s : Stream) (budget : Nat) (nested : Run Expr) : Run Expr :=
  chain s "or" .or (chain s "and" .and (comparison s budget nested) budget) budget

/-- An expression; what is nested in it has the rest of the budget. -/
def expression (s : Stream) : Nat → Run Expr
  | 0 => throw .outOfBudget
  | budget + 1 => progressing (disjunction s budget (expression s budget))

/-! ### Steps -/

/-- A predicate behind its opening bracket. -/
def predicate (s : Stream) (budget : Nat) : Run Expr := do
  let inner ← expression s budget
  expect s .rightBracket
  return inner

/-- The axis that is named in front of a double colon, or the child axis. -/
def axis (s : Stream) : Run Axis := do
  match ← peek s, ← peekAt s 1 with
  | some (.name name), some .colonColon =>
    match Axis.ofName? name with
    | some axis => do
      move s 2
      return axis
    | none => reject s (.unknownAxis name)
  | _, _ => return .child

/-- A node test that starts with a name, which has just been taken. -/
def namedTest (s : Stream) (name : String) : Run NodeTest := do
  if (← peek s) = some .leftParen then
    if name = "node" then do
      expect s .leftParen
      expect s .rightParen
      return .anyNode
    else reject s (.unknownNodeTest name)
  else return .name name

/-- A star, a name, or `node` with parentheses. -/
def nodeTest (s : Stream) : Run NodeTest := do
  match ← advance s with
  | some .star => return .wildcard
  | some (.name name) => namedTest s name
  | some .at => reject s .attributeStep
  | taken => rejectTaken s taken .expectedStep

/-- One of the two abbreviations, or an axis with a node test and predicates. -/
def step (s : Stream) (budget : Nat) : Run Step := progressing do
  if ← eat s .dot then return .here
  else if ← eat s .dotDot then return .up
  else do
    let axis ← axis s
    let test ← nodeTest s
    let predicates ← loop (itemRound s .leftBracket (predicate s budget) fun given next => given ++ [next]) budget []
    return ⟨axis, test, predicates⟩

/-- One more step if there is a slash, with the step that a double slash stands for in front of it. -/
def stepRound (s : Stream) (budget : Nat) (given : List Step) : Run (ForInStep (List Step)) := do
  if ← eat s .doubleSlash then do
    let next ← step s budget
    return .yield (given ++ [.anywhere] ++ [next])
  else if ← eat s .slash then do
    let next ← step s budget
    return .yield (given ++ [next])
  else return .done given

/-- Steps with slashes between them, behind the given ones. -/
def steps (s : Stream) (budget : Nat) (given : List Step) : Run (List Step) := do
  let first ← step s budget
  loop (stepRound s budget) budget (given ++ [first])

/-- Steps from the root behind a slash, or from the context node. -/
def locationPath (s : Stream) (budget : Nat) : Run LocationPath := do
  if ← eat s .doubleSlash then return ⟨true, ← steps s budget [.anywhere]⟩
  else if ← eat s .slash then
    match ← peek s with
    | some _ => return ⟨true, ← steps s budget []⟩
    | none => return ⟨true, []⟩
  else return ⟨false, ← steps s budget []⟩

/-- Reads all tokens, with the cursor at the first one to begin with. -/
def ofTokens (s : Stream) (budget : Nat) : Except Failure LocationPath :=
  if s.tokens = [] then .error (.rejected ⟨.emptyQuery, 0⟩)
  else do
    let (path, pos) ← locationPath s budget 0
    match s.tokens[pos]? with
    | some t => .error (.rejected ⟨.trailing t.token, t.offset⟩)
    | none => .ok path

/-- Reads a query, with a budget for the rounds and the nesting. -/
def parse (budget : Nat) (query : String) : Except Failure LocationPath :=
  match tokens 0 query.toList with
  | .error e => .error (.rejected e)
  | .ok ts => ofTokens ⟨ts, byteLength query.toList⟩ budget

end ElementLocator.XPath.Cursor
