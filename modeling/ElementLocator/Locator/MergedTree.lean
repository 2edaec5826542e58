import ElementLocator.Locator.Chain

/-!
# The two chains as one tree

The entries of the main chain, each one level deeper than the one before, followed by those of the branch, which
hang below the common ancestor as its second child. Handles that no longer stand for anything are left out.
-/

namespace ElementLocator.Locator

/-- One line of the tree. -/
structure TreeEntry where
  handle : Handle
  node : NodeId
  tag : String
  depth : Nat
  scope : Scope
  isCommonParent : Bool
  deriving Repr, DecidableEq

/-- The entries in preorder. -/
abbrev MergedTree := List TreeEntry

namespace MergedTree

/-- The entry that the branch hangs from. -/
def commonParent? (tree : MergedTree) : Option TreeEntry := tree.find? TreeEntry.isCommonParent

/-- An entry in words: its tag, set in by two spaces for each level, with marks behind it for the common parent
and for the branch. -/
def line (entry : TreeEntry) : String :=
  String.ofList (List.replicate (2 * entry.depth) ' ') ++ entry.tag ++ (if entry.isCommonParent then " *" else "") ++
    (if entry.scope = .relative then " (relative)" else "") ++ "\n"

/-- The tree in words, with a line for each entry. -/
def text (tree : MergedTree) : String := String.join (tree.map line)

end MergedTree

/-- The entries for handles on successive levels. -/
def treeEntries (d : Document) (r : Registry) (scope : Scope) (common : Option Nat) (depth : Nat) :
    List Handle → MergedTree
  | [] => []
  | h :: rest =>
    let later := treeEntries d r scope common (depth + 1) rest
    match r.node? h with
    | none => later
    | some n => ⟨h, n, (d.tagName? n).getD "", depth, scope, common == some depth⟩ :: later

/-- The tree of a chain and a branch. -/
def mergedTree (d : Document) (r : Registry) (chain : Chain) (branch : Option Branch) : MergedTree :=
  let common := (branch.bind Branch.shared).bind fun h => chain.findIdx? (· == h)
  let start := match common with
    | some depth => depth + 1
    | none => 0
  treeEntries d r .main common 0 chain ++
    treeEntries d r .relative none start ((branch.map Branch.own).getD [])

end ElementLocator.Locator
