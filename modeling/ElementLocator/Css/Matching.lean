import ElementLocator.Css.Selector
import ElementLocator.Document

/-!
# Matching selectors

A complex selector is matched from the right: the element must meet the last compound, and then some element in
the relation of the combinator to it must match what stands to the left. A failed search says how far its failure
reaches, so that no search is repeated that cannot succeed: a failure for lack of earlier siblings is shared by
all siblings, and a failure for lack of further ancestors is shared by everything.

A search can be confined to the inside of a node, its boundary: climbing from element to element then ends below
that node.
-/

namespace ElementLocator.Css

/-- The value of an attribute stands in the relation of an operator to the value of a selector. -/
def AttributeOperator.holds (operator : AttributeOperator) (actual wanted : String) : Bool :=
  match operator with
  | .equals => actual == wanted
  | .includes => (Text.words actual).contains wanted
  | .dash => actual == wanted || (wanted.toList ++ ['-']).isPrefixOf actual.toList
  | .starts => wanted != "" && wanted.toList.isPrefixOf actual.toList
  | .ends => wanted != "" && wanted.toList.isSuffixOf actual.toList
  | .contains => wanted != "" && Text.occursIn wanted.toList actual.toList

/-- The value of an attribute passes the test of an attribute selector. -/
def AttributeTest.holds (actual : String) : AttributeTest → Bool
  | .exists => true
  | .value operator wanted ignoreCase =>
    if ignoreCase then operator.holds (Text.lower actual) (Text.lower wanted) else operator.holds actual wanted

/-- The number of a place is `step * n + offset` for a natural `n`. The difference of the number and the offset
must fit 32 bits. -/
def Nth.holds (places : Nth) (index : Nat) : Bool :=
  let distance : Int := index - places.offset
  if distance < -0x80000000 || 0x7FFFFFFF < distance then false
  else if places.step = 0 then distance == 0
  else
    let n := distance.tdiv places.step
    0 ≤ n && places.step * n == distance

/-- The place of an element that the places count, from one. -/
def Nth.index (d : Document) (n : NodeId) (places : Nth) : Nat :=
  let siblings := if places.fromEnd then d.followingElements n else d.precedingElements n
  (if places.ofType then siblings.countP fun m => d.localName? m == d.localName? n else siblings.length) + 1

/-- The elements above a node, nearest first, up to below the boundary. -/
def ancestorsWithin (d : Document) (boundary : Option NodeId) (n : NodeId) : List NodeId :=
  ((d.elementLineage n).drop 1).takeWhile fun m => boundary != some m

/-- The outcome of a search: a match, a failure that another sibling may not share, a failure of all siblings, or
a failure of all elements above as well. -/
inductive Outcome where
  | found
  | failed
  | failedForSiblings
  | failedForAll
  deriving DecidableEq

/-- Searches one candidate after the other until an outcome is decisive. -/
def searchAmong (search : NodeId → Outcome) (decisive : Outcome → Bool) (exhausted : Outcome) :
    List NodeId → Outcome
  | [] => exhausted
  | n :: rest =>
    let outcome := search n
    if decisive outcome then outcome else searchAmong search decisive exhausted rest

/-- Goes on to the left of a combinator. -/
def Combinator.search (d : Document) (boundary : Option NodeId) (search : NodeId → Outcome) (n : NodeId) :
    Combinator → Outcome
  | .nextSibling => searchAmong search (fun _ => true) .failedForSiblings (d.precedingElements n)
  | .laterSibling => searchAmong search (· != .failed) .failedForSiblings (d.precedingElements n)
  | .child =>
    match (ancestorsWithin d boundary n).head? with
    | none => .failedForAll
    | some parent =>
      match search parent with
      | .found => .found
      | .failedForAll => .failedForAll
      | _ => .failedForSiblings
  | .descendant =>
    searchAmong search (fun o => o == .found || o == .failedForAll) .failedForAll (ancestorsWithin d boundary n)

mutual

/-- An element meets one condition. -/
def Simple.holds (d : Document) (boundary : Option NodeId) (n : NodeId) : Simple → Bool
  | .type name => d.localName? n == some (Text.lower name)
  | .universal => true
  | .id name => d.attribute? n "id" == some name
  | .class name => (d.classList n).contains name
  | .attribute anyNamespace name test => !anyNamespace && (d.attribute? n (Text.lower name)).any (test.holds ·)
  | .nth places => places.holds (places.index d n)
  | .root => d.documentElement? == some n
  | .empty => (d.firstElementChild? n).isNone && Text.isBlank (d.textContent n)
  | .host => false
  | .not alternatives => !Complex.anyHolds d boundary n alternatives

/-- An element meets all conditions of a compound. -/
def Simple.allHold (d : Document) (boundary : Option NodeId) (n : NodeId) : List Simple → Bool
  | [] => true
  | condition :: rest => condition.holds d boundary n && Simple.allHold d boundary n rest

/-- Searches for elements that match the compounds of a complex selector, beginning with the last one. -/
def Complex.search (d : Document) (boundary : Option NodeId) (n : NodeId) : Complex → Outcome
  | .compound conditions => if Simple.allHold d boundary n conditions then .found else .failed
  | .combine left combinator conditions =>
    if Simple.allHold d boundary n conditions then
      combinator.search d boundary (fun m => left.search d boundary m) n
    else .failed

/-- An element matches one of the alternatives. -/
def Complex.anyHolds (d : Document) (boundary : Option NodeId) (n : NodeId) : List Complex → Bool
  | [] => false
  | selector :: rest => selector.search d boundary n == .found || Complex.anyHolds d boundary n rest

end

/-- An element matches a selector list, confined to the inside of the boundary if there is one. -/
def matchesWithin (d : Document) (boundary : Option NodeId) (n : NodeId) (list : SelectorList) : Bool :=
  Complex.anyHolds d boundary n list

/-- A node is an element and matches a selector list. -/
def matchesList (d : Document) (n : NodeId) (list : SelectorList) : Bool :=
  d.isElement n && matchesWithin d none n list

end ElementLocator.Css
