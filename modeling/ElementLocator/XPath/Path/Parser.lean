import ElementLocator.XPath.Path
import ElementLocator.XPath.Token.Lexer

/-!
# From tokens to location paths

A reader takes what it needs off the front of a token list and hands back the rest. The grammar is

* `Path      ::= '/' RelPath? | '//' RelPath | RelPath`
* `RelPath   ::= Step (('/' | '//') Step)*`
* `Step      ::= '.' | '..' | (AxisName '::')? NodeTest Predicate*`
* `NodeTest  ::= Name | '*' | 'node' '(' ')'`
* `Predicate ::= '[' OrExpr ']'`
* `OrExpr    ::= AndExpr ('or' AndExpr)*`
* `AndExpr   ::= CmpExpr ('and' CmpExpr)*`
* `CmpExpr   ::= Primary (('=' | '!=') Primary)?`
* `Primary   ::= Number | Literal | '@' Name | '(' OrExpr ')' | Name '(' Args? ')'`

The readers for the levels of expressions take the reader for the expressions nested in them as an argument.
`expression` closes that circle with a bound on the depth of nesting, and repetitions carry a bound on their
length. Every nested expression and every repetition uses up a token, so the number of tokens bounds both, and
where a bound is used up no token is left: the answer there is the one that the end of the query has.
-/

namespace ElementLocator.XPath

namespace Grammar

/-- Reads from the front of a token list. -/
abbrev Reader (α : Type) := List Placed → Except Error (α × List Placed)

/-- The token at the front. -/
def front? (ts : List Placed) : Option Token := ts.head?.map Placed.token

/-- A fault at the token at the front, or at the end of the query, which is byte `stop`. -/
def faultAt (stop : Nat) (ts : List Placed) (fault : Fault) : Error :=
  ⟨fault, (ts.head?.map Placed.offset).getD stop⟩

/-- Takes the given token off the front. -/
def expect (stop : Nat) (token : Token) (ts : List Placed) : Except Error (List Placed) :=
  match ts with
  | t :: rest =>
    if t.token = token then .ok rest else .error (faultAt stop ts (.expected token (some t.token)))
  | [] => .error (faultAt stop ts (.expected token none))

/-! ### Expressions -/

/-- Arguments up to the closing parenthesis, at least one and at most `bound`. -/
def arguments (stop : Nat) (nested : Reader Expr) : Nat → Reader (List Expr)
  | 0, ts => .error (faultAt stop ts (.expectedExpression (front? ts)))
  | bound + 1, ts => do
    let (first, rest) ← nested ts
    match rest with
    | ⟨.rightParen, _⟩ :: rest => .ok ([first], rest)
    | _ =>
      let rest ← expect stop .comma rest
      let (others, rest) ← arguments stop nested bound rest
      .ok (first :: others, rest)

/-- A function call behind its opening parenthesis; `offset` is where the name of the function starts. -/
def call (stop : Nat) (nested : Reader Expr) (name : String) (offset : Nat) : Reader Expr := fun ts =>
  match Function.ofName? name with
  | none => .error ⟨.unknownFunction name, offset⟩
  | some function => do
    let (given, rest) ← match ts with
      | ⟨.rightParen, _⟩ :: rest => .ok ([], rest)
      | _ => arguments stop nested ts.length ts
    if given.length < function.least || function.most?.any (· < given.length) then
      .error ⟨.argumentCount name function.least function.shownMost given.length, offset⟩
    else .ok (.call function given, rest)

/-- A number, a literal, an attribute, a parenthesised expression or a function call. -/
def primary (stop : Nat) (nested : Reader Expr) : Reader Expr := fun ts =>
  match ts with
  | ⟨.number value, _⟩ :: rest => .ok (.number value, rest)
  | ⟨.literal text, _⟩ :: rest => .ok (.literal text, rest)
  | ⟨.at, _⟩ :: ⟨.name name, _⟩ :: rest => .ok (.attribute (Text.lower name), rest)
  | ⟨.at, offset⟩ :: rest => .error (faultAt offset rest .expectedAttributeName)
  | ⟨.leftParen, _⟩ :: rest => do
    let (inner, rest) ← nested rest
    let rest ← expect stop .rightParen rest
    .ok (inner, rest)
  | ⟨.name name, offset⟩ :: ⟨.leftParen, _⟩ :: rest => call stop nested name offset rest
  | _ => .error (faultAt stop ts (.expectedExpression (front? ts)))

/-- One primary expression, or two with an equality sign between them. -/
def comparison (stop : Nat) (nested : Reader Expr) : Reader Expr := fun ts => do
  let (left, rest) ← primary stop nested ts
  match rest with
  | ⟨.equals, _⟩ :: rest => do
    let (right, rest) ← primary stop nested rest
    .ok (.compare false left right, rest)
  | ⟨.notEquals, _⟩ :: rest => do
    let (right, rest) ← primary stop nested rest
    .ok (.compare true left right, rest)
  | _ => .ok (left, rest)

/-- Further items, each behind the keyword, joined to what stands to their left; at most `bound` of them. -/
def chainRest (keyword : String) (join : Expr → Expr → Expr) (item : Reader Expr) : Nat → Expr → Reader Expr
  | 0, left, ts => .ok (left, ts)
  | bound + 1, left, ts =>
    match ts with
    | ⟨.name word, _⟩ :: rest =>
      if word = keyword then do
        let (right, rest) ← item rest
        chainRest keyword join item bound (join left right) rest
      else .ok (left, ts)
    | _ => .ok (left, ts)

/-- Items with the keyword between them, joined from the left. -/
def chain (keyword : String) (join : Expr → Expr → Expr) (item : Reader Expr) : Reader Expr := fun ts => do
  let (first, rest) ← item ts
  chainRest keyword join item rest.length first rest

/-- Comparisons joined by `and`, and these joined by `or`. -/
def disjunction (stop : Nat) (nested : Reader Expr) : Reader Expr :=
  chain "or" .or (chain "and" .and (comparison stop nested))

/-- An expression with at most `depth` levels of nesting. -/
def expression (stop : Nat) : Nat → Reader Expr
  | 0, ts => .error (faultAt stop ts (.expectedExpression (front? ts)))
  | depth + 1, ts => disjunction stop (expression stop depth) ts

/-! ### Steps -/

/-- At most `bound` predicates. -/
def predicates (stop : Nat) : Nat → Reader (List Expr)
  | 0, ts => .ok ([], ts)
  | bound + 1, ts =>
    match ts with
    | ⟨.leftBracket, _⟩ :: rest => do
      let (first, rest) ← expression stop rest.length rest
      let rest ← expect stop .rightBracket rest
      let (others, rest) ← predicates stop bound rest
      .ok (first :: others, rest)
    | _ => .ok ([], ts)

/-- The axis of a step, which is `child` unless one is named. -/
def axis : Reader Axis := fun ts =>
  match ts with
  | ⟨.name name, offset⟩ :: ⟨.colonColon, _⟩ :: rest =>
    match Axis.ofName? name with
    | some axis => .ok (axis, rest)
    | none => .error ⟨.unknownAxis name, offset⟩
  | _ => .ok (.child, ts)

/-- The node test of a step. -/
def nodeTest (stop : Nat) : Reader NodeTest := fun ts =>
  match ts with
  | ⟨.star, _⟩ :: rest => .ok (.wildcard, rest)
  | ⟨.name name, _⟩ :: ⟨.leftParen, offset⟩ :: rest =>
    if name = "node" then do
      let rest ← expect stop .rightParen rest
      .ok (.anyNode, rest)
    else .error ⟨.unknownNodeTest name, offset⟩
  | ⟨.name name, _⟩ :: rest => .ok (.name name, rest)
  | ⟨.at, _⟩ :: rest => .error (faultAt stop rest .attributeStep)
  | _ => .error (faultAt stop ts (.expectedStep (front? ts)))

/-- One step of a location path. -/
def step (stop : Nat) : Reader Step := fun ts =>
  match ts with
  | ⟨.dot, _⟩ :: rest => .ok (.here, rest)
  | ⟨.dotDot, _⟩ :: rest => .ok (.up, rest)
  | _ => do
    let (axis, rest) ← axis ts
    let (test, rest) ← nodeTest stop rest
    let (predicates, rest) ← predicates stop rest.length rest
    .ok (⟨axis, test, predicates⟩, rest)

/-- At least one and at most `bound` steps with slashes between them. -/
def steps (stop : Nat) : Nat → Reader (List Step)
  | 0, ts => .error (faultAt stop ts (.expectedStep (front? ts)))
  | bound + 1, ts => do
    let (first, rest) ← step stop ts
    match rest with
    | ⟨.doubleSlash, _⟩ :: rest => do
      let (others, rest) ← steps stop bound rest
      .ok (first :: .anywhere :: others, rest)
    | ⟨.slash, _⟩ :: rest => do
      let (others, rest) ← steps stop bound rest
      .ok (first :: others, rest)
    | _ => .ok ([first], rest)

/-- A location path. -/
def locationPath (stop : Nat) : Reader LocationPath := fun ts =>
  match ts with
  | ⟨.doubleSlash, _⟩ :: rest => do
    let (others, rest) ← steps stop rest.length rest
    .ok (⟨true, .anywhere :: others⟩, rest)
  | [⟨.slash, _⟩] => .ok (⟨true, []⟩, [])
  | ⟨.slash, _⟩ :: rest => do
    let (others, rest) ← steps stop rest.length rest
    .ok (⟨true, others⟩, rest)
  | _ => do
    let (others, rest) ← steps stop ts.length ts
    .ok (⟨false, others⟩, rest)

end Grammar

/-- The location path that a list of tokens writes; the query ends at byte `stop`. -/
def LocationPath.ofTokens (stop : Nat) (ts : List Placed) : Except Error LocationPath :=
  match ts with
  | [] => .error ⟨.emptyQuery, 0⟩
  | _ => do
    let (path, rest) ← Grammar.locationPath stop ts
    match rest with
    | [] => .ok path
    | t :: _ => .error ⟨.trailing t.token, t.offset⟩

/-- The location path that a query writes. -/
def parse (query : String) : Except Error LocationPath := do
  let ts ← tokens 0 query.toList
  LocationPath.ofTokens (byteLength query.toList) ts

end ElementLocator.XPath
