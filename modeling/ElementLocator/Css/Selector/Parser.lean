import ElementLocator.Css.Selector.Places

/-!
# From text to selectors

Selectors are read from component values, so that a block is one item whatever stands in it. Each reader takes
what it needs off the front and hands back the rest. The selectors inside a functional pseudo-class are read by
the reader that is passed in; `complexWithin` closes that circle, with the depth of nesting as its bound.

No namespace is declared, no pseudo-element is supported, and of the pseudo-classes only those that speak about the
tree. The pseudo-class `:host` can be written with an argument.
-/

namespace ElementLocator.Css

open ComponentValue (skipSpace)

/-- Reads from the front of component values. -/
abbrev Reader (α : Type) := List ComponentValue → Except Fault (α × List ComponentValue)

/-- What the selectors inside a functional pseudo-class may not hold. -/
structure Restriction where
  noPseudoElements : Bool := false
  noCombinators : Bool := false

/-- Nothing but white space may be left. -/
def finish {α : Type} (result : α × List ComponentValue) : Except Fault α :=
  match skipSpace result.2 with
  | [] => .ok result.1
  | v :: _ => .error (.unexpected v.head)

/-! ### Type selectors -/

/-- The name behind a namespace separator. -/
def nameAfterBar : Reader (Option Simple)
  | .single (.delim '*') :: rest => .ok (some .universal, rest)
  | .single (.ident name) :: rest => .ok (some (.type name), rest)
  | v :: _ => .error (.badQualifiedName v.head)
  | [] => .ok (none, [])

/-- A type selector or the universal selector, if one is there. -/
def typeSelector : Reader (Option Simple)
  | .single (.ident name) :: .single (.delim '|') :: _ => .error (.undeclaredNamespace name)
  | .single (.ident name) :: rest => .ok (some (.type name), rest)
  | .single (.delim '*') :: .single (.delim '|') :: rest => nameAfterBar rest
  | .single (.delim '*') :: rest => .ok (some .universal, rest)
  | .single (.delim '|') :: rest => nameAfterBar rest
  | vs => .ok (none, vs)

/-! ### Attribute selectors -/

/-- The attributes whose values HTML compares without regard to ASCII letter case. -/
def caselessAttributes : List String := [
  "accept", "accept-charset", "align", "alink", "axis", "bgcolor", "charset", "checked", "clear", "codetype",
  "color", "compact", "declare", "defer", "dir", "direction", "disabled", "enctype", "face", "frame", "hreflang",
  "http-equiv", "lang", "language", "link", "media", "method", "multiple", "nohref", "noresize", "noshade",
  "nowrap", "readonly", "rel", "rev", "rules", "scope", "scrolling", "selected", "shape", "target", "text", "type",
  "valign", "valuetype", "vlink"]

/-- The attribute name behind a namespace separator. -/
def attributeNameAfterBar : Reader String
  | .single (.ident name) :: rest => .ok (name, rest)
  | v :: _ => .error (.badAttributeName v.head)
  | [] => .error .endOfInput

/-- The name of an attribute, and whether it may be in any namespace. -/
def attributeName : Reader (Bool × String)
  | .single (.ident name) :: .single (.delim '|') :: _ => .error (.undeclaredNamespace name)
  | .single (.ident name) :: rest => .ok ((false, name), rest)
  | .single (.delim '*') :: .single (.delim '|') :: rest => do
    let (name, rest) ← attributeNameAfterBar rest
    .ok ((true, name), rest)
  | .single (.delim '*') :: v :: _ => .error (.expectedBar v.head)
  | [.single (.delim '*')] => .error .endOfInput
  | .single (.delim '|') :: rest => do
    let (name, rest) ← attributeNameAfterBar rest
    .ok ((false, name), rest)
  | v :: _ => .error (.attributeNeedsName v.head)
  | [] => .error .endOfInput

/-- The comparison that a token writes. -/
def comparison? : Token → Option AttributeOperator
  | .delim '=' => some .equals
  | .attributeMatch operator => some operator
  | _ => none

/-- The value in an attribute selector: a name or a string. -/
def attributeValue (vs : List ComponentValue) : Except Fault (String × List ComponentValue) :=
  match skipSpace vs with
  | .single (.ident value) :: rest => .ok (value, rest)
  | .single (.quotedString value) :: rest => .ok (value, rest)
  | v :: _ => .error (.badAttributeValue v.head)
  | [] => .error .endOfInput

/-- The letter behind the value that settles whether letter case counts; `none` if there is none. -/
def caseFlag (vs : List ComponentValue) : Except Fault (Option Bool × List ComponentValue) :=
  match skipSpace vs with
  | [] => .ok (none, [])
  | v :: rest =>
    match v.head with
    | .ident name =>
      if Text.lower name = "i" then .ok (some true, rest)
      else if Text.lower name = "s" then .ok (some false, rest)
      else .error (.unexpected v.head)
    | token => .error (.unexpected token)

/-- The contents of the brackets of an attribute selector. -/
def attributeSelector (contents : List ComponentValue) : Except Fault Simple := do
  let ((anyNamespace, name), rest) ← attributeName (skipSpace contents)
  match skipSpace rest with
  | [] => .ok (.attribute anyNamespace name .exists)
  | v :: rest =>
    match comparison? v.head with
    | none => .error (.unexpectedInAttribute v.head)
    | some operator =>
      let (value, rest) ← attributeValue rest
      let (flag, rest) ← caseFlag rest
      let byName := !anyNamespace && caselessAttributes.contains (Text.lower name)
      finish (.attribute anyNamespace name (.value operator value (flag.getD byName)), rest)

/-! ### Pseudo-classes -/

/-- The names that denote pseudo-elements even with a single colon. -/
def isOldPseudoElement (name : String) : Bool :=
  ["before", "after", "first-line", "first-letter"].contains (Text.lower name)

/-- The pseudo-classes without arguments. Being the only child is being the first and the last. -/
def simplePseudoClass (name : String) : Except Fault (List Simple) :=
  match Text.lower name with
  | "first-child" => .ok [.nth (.edge false false)]
  | "last-child" => .ok [.nth (.edge false true)]
  | "only-child" => .ok [.nth (.edge false false), .nth (.edge false true)]
  | "first-of-type" => .ok [.nth (.edge true false)]
  | "last-of-type" => .ok [.nth (.edge true true)]
  | "only-of-type" => .ok [.nth (.edge true false), .nth (.edge true true)]
  | "root" => .ok [.root]
  | "scope" => .ok [.root]
  | "empty" => .ok [.empty]
  | _ => .error (.unsupportedPseudo name)

/-- A pseudo-class about places among siblings. -/
def nthPseudoClass (ofType fromEnd : Bool) (contents : List ComponentValue) : Except Fault (List Simple) := do
  let ((step, offset), rest) ← Places.parse contents
  finish ([.nth ⟨step, offset, ofType, fromEnd⟩], rest)

/-- The selectors between commas, each read by the given reader up to its end. -/
def selectorList (complex : Reader Complex) (vs : List ComponentValue) : Except Fault SelectorList :=
  (ComponentValue.splitAtCommas vs).mapM fun part => complex part >>= finish

/-- The pseudo-classes with arguments; `nested` reads the selectors in them. -/
def functionalPseudoClass (nested : Restriction → Reader Complex) (restriction : Restriction) (name : String)
    (contents : List ComponentValue) : Except Fault (List Simple) :=
  match Text.lower name with
  | "nth-child" => nthPseudoClass false false contents
  | "nth-last-child" => nthPseudoClass false true contents
  | "nth-of-type" => nthPseudoClass true false contents
  | "nth-last-of-type" => nthPseudoClass true true contents
  | "not" => do
    let alternatives ← selectorList (nested { restriction with noPseudoElements := true }) contents
    .ok [.not alternatives]
  | "host" => do
    let _ ← nested ⟨true, true⟩ contents >>= finish
    .ok [.host]
  | _ => .error (.unsupportedPseudo name)

/-- What follows a colon. A second colon, or one of the old names, makes it a pseudo-element. -/
def pseudo (nested : Restriction → Reader Complex) (restriction : Restriction) (vs : List ComponentValue) :
    Except Fault (List Simple × List ComponentValue) := do
  let (double, vs) := match vs with
    | .single .colon :: rest => (true, rest)
    | _ => (false, vs)
  let element (name : String) : Bool := double || isOldPseudoElement name
  let refusal (name : String) : Fault :=
    if restriction.noPseudoElements then .invalidState else .unsupportedPseudo name
  match vs with
  | [] => .error .endOfInput
  | .single (.ident name) :: rest =>
    if element name then .error (refusal name)
    else do
      let conditions ← simplePseudoClass name
      .ok (conditions, rest)
  | .block (.function name) contents :: rest =>
    if element name then .error (refusal name)
    else do
      let conditions ← functionalPseudoClass nested restriction name contents
      .ok (conditions, rest)
  | v :: _ => .error (.pseudoNeedsName v.head)

/-! ### Compounds and complex selectors -/

/-- The conditions of one simple selector other than a type selector, if one is there. -/
def simpleSelector (nested : Restriction → Reader Complex) (restriction : Restriction) :
    Reader (Option (List Simple))
  | .single (.idHash name) :: rest => .ok (some [.id name], rest)
  | .single (.delim '.') :: rest =>
    match rest with
    | .single (.ident name) :: later => .ok (some [.class name], later)
    | v :: _ => .error (.classNeedsName v.head)
    | [] => .error .endOfInput
  | .block .openSquare contents :: rest => do
    let condition ← attributeSelector contents
    .ok (some [condition], rest)
  | .single .colon :: rest => do
    let (conditions, rest) ← pseudo nested restriction rest
    .ok (some conditions, rest)
  | vs => .ok (none, vs)

/-- At most `bound` simple selectors, one behind the other. -/
def simpleSelectors (nested : Restriction → Reader Complex) (restriction : Restriction) :
    Nat → Reader (List Simple)
  | 0, vs => .ok ([], vs)
  | bound + 1, vs => do
    match ← simpleSelector nested restriction vs with
    | (none, rest) => .ok ([], rest)
    | (some conditions, rest) =>
      let (others, rest) ← simpleSelectors nested restriction bound rest
      .ok (conditions ++ others, rest)

/-- A compound, white space in front of it skipped; it has no condition if none is there. -/
def compound (nested : Restriction → Reader Complex) (restriction : Restriction) : Reader (List Simple) :=
  fun vs => do
    let (type, rest) ← typeSelector (skipSpace vs)
    let (others, rest) ← simpleSelectors nested restriction rest.length rest
    .ok (type.toList ++ others, rest)

/-- The combinator at the front, if one is there: a sign, or else white space in front of something. -/
def combinator : List ComponentValue → Option Combinator × List ComponentValue := fun vs =>
  match skipSpace vs with
  | .single (.delim '>') :: rest => (some .child, rest)
  | .single (.delim '+') :: rest => (some .nextSibling, rest)
  | .single (.delim '~') :: rest => (some .laterSibling, rest)
  | [] => (none, [])
  | v :: rest => if vs.head?.any ComponentValue.isWhiteSpace then (some .descendant, v :: rest) else (none, vs)

/-- At most `bound` further compounds, each behind a combinator. -/
def complexRest (nested : Restriction → Reader Complex) (restriction : Restriction) :
    Nat → Complex → Reader Complex
  | 0, left, vs => .ok (left, vs)
  | bound + 1, left, vs =>
    match combinator vs with
    | (none, rest) => .ok (left, rest)
    | (some joint, rest) =>
      if restriction.noCombinators then .error .invalidState
      else do
        let (conditions, rest) ← compound nested restriction rest
        if conditions.isEmpty then .error .danglingCombinator
        else complexRest nested restriction bound (.combine left joint conditions) rest

/-- A complex selector; `nested` reads the selectors inside it. -/
def complex (nested : Restriction → Reader Complex) (restriction : Restriction) : Reader Complex := fun vs => do
  let (conditions, rest) ← compound nested restriction vs
  if conditions.isEmpty then .error .emptySelector
  else complexRest nested restriction rest.length (.compound conditions) rest

/-- A complex selector whose blocks are nested fewer than `depth` deep. -/
def complexWithin : Nat → Restriction → Reader Complex
  | 0 => fun _ _ => .error .endOfInput
  | depth + 1 => complex (complexWithin depth)

/-- The selector list that component values write. -/
def SelectorList.ofValues (vs : List ComponentValue) : Except Fault SelectorList :=
  selectorList (complexWithin (ComponentValue.depthOf vs + 1) {}) vs

/-- The selector list that a text writes. -/
def parse (text : String) : Except Error SelectorList :=
  match SelectorList.ofValues (ComponentValue.ofText text) with
  | .ok list => .ok list
  | .error fault => .error ⟨text, fault⟩

end ElementLocator.Css
