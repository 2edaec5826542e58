import ElementLocator.Text.Ascii
import ElementLocator.XPath.Token
import ElementLocator.XPath.Path
import Mathlib

/-!
# The grammar of location paths

The grammar as a relation between lists of tokens and the trees that they are written for, with one rule for each
alternative. Nothing here refers to the readers: no lookahead, no bound, no order in which alternatives are tried.
-/

namespace ElementLocator.XPath

/-- The function takes that many arguments. -/
def Function.Takes (function : Function) (count : Nat) : Prop :=
  function.least ≤ count ∧ ∀ most ∈ function.most?, count ≤ most

/-- What the check of the number of arguments decides. -/
theorem Function.takes_iff {function : Function} {count : Nat} : function.Takes count ↔
    (decide (count < function.least) || function.most?.any fun most => decide (most < count)) = false := by
  rw [Function.Takes, Bool.or_eq_false_iff, decide_eq_false_iff_not, Nat.not_lt]
  refine and_congr_right fun _ => ?_
  cases function.most? with
  | none => simp
  | some most => simp

namespace Derives

/-! ### Expressions -/

/-- `'=' | '!='`, and whether the sign negates. -/
inductive Sign : Token → Bool → Prop
  | equal : Sign .equals false
  | unequal : Sign .notEquals true

mutual

/-- `Primary ::= Number | Literal | '@' Name | '(' OrExpr ')' | Name '(' Args? ')'` with
`Args ::= OrExpr (',' OrExpr)*`. Parentheses leave no trace; attribute names are compared in lower case. -/
inductive Primary : List Token → Expr → Prop
  | number (value : Number) : Primary [.number value] (.number value)
  | literal (text : String) : Primary [.literal text] (.literal text)
  | attribute (name : String) : Primary [.at, .name name] (.attribute (Text.lower name))
  | parentheses {ts : List Token} {e : Expr} : Disjunction ts e → Primary (.leftParen :: ts ++ [.rightParen]) e
  | call {name : String} {function : Function} (args : List (List Token × Expr)) :
      Function.ofName? name = some function → function.Takes args.length → (∀ a ∈ args, Disjunction a.1 a.2) →
      Primary (.name name :: .leftParen :: ([Token.comma].intercalate (args.map Prod.fst) ++ [.rightParen]))
        (.call function (args.map Prod.snd))

/-- `CmpExpr ::= Primary (('=' | '!=') Primary)?` -/
inductive Comparison : List Token → Expr → Prop
  | primary {ts : List Token} {e : Expr} : Primary ts e → Comparison ts e
  | compare {ts us : List Token} {left right : Expr} {sign : Token} {negated : Bool} :
      Primary ts left → Sign sign negated → Primary us right →
      Comparison (ts ++ sign :: us) (.compare negated left right)

/-- `AndExpr ::= CmpExpr ('and' CmpExpr)*`, joined from the left. -/
inductive Conjunction : List Token → Expr → Prop
  | join (first : List Token × Expr) (others : List (List Token × Expr)) :
      Comparison first.1 first.2 → (∀ i ∈ others, Comparison i.1 i.2) →
      Conjunction (first.1 ++ others.flatMap fun i => .name "and" :: i.1) ((others.map Prod.snd).foldl .and first.2)

/-- `OrExpr ::= AndExpr ('or' AndExpr)*`, joined from the left. -/
inductive Disjunction : List Token → Expr → Prop
  | join (first : List Token × Expr) (others : List (List Token × Expr)) :
      Conjunction first.1 first.2 → (∀ i ∈ others, Conjunction i.1 i.2) →
      Disjunction (first.1 ++ others.flatMap fun i => .name "or" :: i.1) ((others.map Prod.snd).foldl .or first.2)

end

/-- The tokens start with one that closes no call. -/
def Opens (ts : List Token) : Prop := ∃ t more, ts = t :: more ∧ t ≠ .rightParen

/-- What opens an expression is not empty. -/
theorem Opens.ne_nil {ts : List Token} (h : Opens ts) : ts ≠ [] := by
  obtain ⟨t, more, rfl, -⟩ := h
  exact List.cons_ne_nil t more

/-- What opens an expression does so with more tokens behind it. -/
theorem Opens.append {ts : List Token} (h : Opens ts) (us : List Token) : Opens (ts ++ us) := by
  obtain ⟨t, more, rfl, ht⟩ := h
  exact ⟨t, more ++ us, rfl, ht⟩

mutual

/-- A primary expression opens one. -/
theorem Primary.opens {ts : List Token} {e : Expr} : Primary ts e → Opens ts
  | .number _ | .literal _ | .attribute _ | .parentheses _ | .call .. => ⟨_, _, rfl, nofun⟩

/-- So does a comparison. -/
theorem Comparison.opens {ts : List Token} {e : Expr} : Comparison ts e → Opens ts
  | .primary h => h.opens
  | .compare hleft _ _ => hleft.opens.append _

/-- So does a conjunction. -/
theorem Conjunction.opens {ts : List Token} {e : Expr} : Conjunction ts e → Opens ts
  | .join _ _ hfirst _ => hfirst.opens.append _

/-- An expression does not start with the parenthesis that closes a call without arguments. -/
theorem Disjunction.opens {ts : List Token} {e : Expr} : Disjunction ts e → Opens ts
  | .join _ _ hfirst _ => hfirst.opens.append _

end

/-- A comparison alone is an expression. -/
theorem Comparison.disjunction {ts : List Token} {e : Expr} (h : Comparison ts e) : Disjunction ts e := by
  have hand : Conjunction ts e := by simpa using Conjunction.join (ts, e) [] h (by simp)
  simpa using Disjunction.join (ts, e) [] hand (by simp)

/-! ### Steps -/

/-- `(AxisName '::')?`; without a name the step goes to children. -/
inductive AxisPart : List Token → Axis → Prop
  | none : AxisPart [] .child
  | named {name : String} {axis : Axis} : Axis.ofName? name = some axis → AxisPart [.name name, .colonColon] axis

/-- `NodeTest ::= Name | '*' | 'node' '(' ')'` -/
inductive Test : List Token → NodeTest → Prop
  | name (tag : String) : Test [.name tag] (.name tag)
  | star : Test [.star] .wildcard
  | node : Test [.name "node", .leftParen, .rightParen] .anyNode

/-- `Step ::= '.' | '..' | (AxisName '::')? NodeTest Predicate*` with `Predicate ::= '[' OrExpr ']'` -/
inductive Step : List Token → XPath.Step → Prop
  | dot : Step [.dot] .here
  | dotDot : Step [.dotDot] .up
  | full {ts us : List Token} {axis : Axis} {test : NodeTest} (predicates : List (List Token × Expr)) :
      AxisPart ts axis → Test us test → (∀ i ∈ predicates, Disjunction i.1 i.2) →
      Step (ts ++ us ++ predicates.flatMap fun i => .leftBracket :: i.1 ++ [.rightBracket])
        ⟨axis, test, predicates.map Prod.snd⟩

/-- A derived step has tokens. -/
theorem Step.ne_nil {ts : List Token} {s : XPath.Step} (h : Step ts s) : ts ≠ [] := by
  cases h with
  | dot | dotDot => exact List.cons_ne_nil _ _
  | full predicates haxis htest => cases htest <;> simp

/-! ### Paths

The rules for paths take what counts as a step as a parameter. -/

/-- `'/' | '//'`, and the steps that it stands for by itself. -/
inductive Slash : Token → List XPath.Step → Prop
  | single : Slash .slash []
  | double : Slash .doubleSlash [.anywhere]

variable {IsStep Other : List Token → XPath.Step → Prop} {ts us : List Token} {first : XPath.Step}
  {steps : List XPath.Step}

/-- `RelPath ::= Step (('/' | '//') Step)*` -/
inductive RelPath (IsStep : List Token → XPath.Step → Prop) : List Token → List XPath.Step → Prop
  | step {ts : List Token} {first : XPath.Step} : IsStep ts first → RelPath IsStep ts [first]
  | cons {ts us : List Token} {first : XPath.Step} {between steps : List XPath.Step} {separator : Token} :
      IsStep ts first → Slash separator between → RelPath IsStep us steps →
      RelPath IsStep (ts ++ separator :: us) (first :: (between ++ steps))

/-- `Path ::= '/' RelPath? | '//' RelPath | RelPath` -/
inductive Path (IsStep : List Token → XPath.Step → Prop) : List Token → LocationPath → Prop
  | root : Path IsStep [.slash] ⟨true, []⟩
  | absolute {ts : List Token} {between steps : List XPath.Step} {separator : Token} :
      Slash separator between → RelPath IsStep ts steps → Path IsStep (separator :: ts) ⟨true, between ++ steps⟩
  | relative {ts : List Token} {steps : List XPath.Step} :
      RelPath IsStep ts steps → Path IsStep ts ⟨false, steps⟩

/-- A relative path is one of any steps that include its own. -/
theorem RelPath.mono (hstep : ∀ ts s, IsStep ts s → Other ts s) (h : RelPath IsStep ts steps) :
    RelPath Other ts steps := by
  induction h with
  | step hfirst => exact .step (hstep _ _ hfirst)
  | cons hfirst hslash _ ih => exact .cons (hstep _ _ hfirst) hslash ih

/-- The same for a location path. -/
theorem Path.mono (hstep : ∀ ts s, IsStep ts s → Other ts s) {path : LocationPath} (h : Path IsStep ts path) :
    Path Other ts path := by
  cases h with
  | root => exact .root
  | absolute hslash hsteps => exact .absolute hslash (hsteps.mono hstep)
  | relative hsteps => exact .relative (hsteps.mono hstep)

/-- Steps with single slashes between them. -/
theorem RelPath.intercalate {α : Type} {items : List α} {tokensOf : α → List Token} {stepOf : α → XPath.Step}
    (hne : items ≠ []) (hitems : ∀ i ∈ items, IsStep (tokensOf i) (stepOf i)) :
    RelPath IsStep ([Token.slash].intercalate (items.map tokensOf)) (items.map stepOf) := by
  induction items with
  | nil => exact absurd rfl hne
  | cons i items ih =>
    have hi := hitems i List.mem_cons_self
    cases items with
    | nil =>
      rw [List.map_singleton, List.intercalate_singleton]
      exact .step hi
    | cons j items =>
      have hothers := ih (List.cons_ne_nil j items) fun k hk => hitems k (List.mem_cons_of_mem i hk)
      rw [List.map_cons, List.map_cons, List.intercalate_cons_cons, ← List.map_cons, List.append_assoc]
      exact .cons hi .single hothers

end Derives

end ElementLocator.XPath
