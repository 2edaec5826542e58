import ElementLocator.CommandLine.Options
import ElementLocator.Config.File
import ElementLocator.Css.Query
import ElementLocator.Document.Html
import ElementLocator.Document.Snapshot
import ElementLocator.Locator

/-!
# A run of the program

A run reads the settings and the file, picks nodes with selectors, refines the locators and prints them, and says
whether they find the picked nodes again. It ends at the first failure, and what was printed before stays.
-/

namespace ElementLocator.CommandLine

/-- What a run sees of its surroundings. -/
structure Surroundings where
  files : Files
  environment : String → Option String

/-- Why a run fails. -/
inductive Failure where
  | arguments (error : ArgumentError)
  | settings (error : Config.FileError)
  | unreadable (path : String) (fault : FileFault)
  | fragment (error : Document.FragmentError)
  | selector (error : Css.Error)
  | noMatch (flag : ValueFlag) (sought : String)
  | locator (error : Locator.Error)
  deriving Repr, DecidableEq

namespace Failure

/-- The failure in words. -/
def message : Failure → String
  | .arguments error => error.message
  | .settings error => error.message
  | .unreadable path fault => "cannot read " ++ path ++ ": " ++ fault.message
  | .fragment error => error.message
  | .selector error => error.message
  | .noMatch flag sought => "no element matches " ++ flag.text ++ " " ++ Text.codeSpan sought
  | .locator error => error.message

/-- What lies behind the failure, in words. -/
def cause? : Failure → Option String
  | .settings error => some error.cause
  | _ => none

/-- The failure as it is shown at the end of a run. -/
def report (failure : Failure) : String :=
  let cause := match failure.cause? with
    | none => ""
    | some cause => "\n\nCaused by:\n    " ++ cause
  "Error: " ++ failure.message ++ cause ++ "\n"

end Failure

/-! ### Settings -/

/-- The settings before the switches count: those of the file that is named, or else those of the environment. -/
def Options.baseConfig (options : Options) (s : Surroundings) : Except Config.FileError Config :=
  match options.config with
  | some path => Config.ofFile s.files path
  | none => .ok (Config.ofEnvironment s.environment)

/-- The settings of a run; the switch for XPath overrides the grammar. -/
def Options.settings (options : Options) (s : Surroundings) : Except Config.FileError Config := do
  let config ← options.baseConfig s
  .ok { config with useXPath := config.useXPath || options.xpath }

/-! ### Picking -/

/-- The document that a text of markup writes, as a page or as a fragment. -/
def Options.document (options : Options) (markup : String) : Except Failure Document :=
  if options.fragment then (Document.ofHtmlFragment markup).mapError .fragment
  else .ok (Document.ofHtml markup)

/-- The flag with the selector for a scope. -/
def pickFlag : Scope → ValueFlag
  | .main => .pick
  | .relative => .relative

/-- Picks the first node that a selector matches. -/
def pickFirst (l : Locator) (scope : Scope) (selector : String) : Except Failure (NodeId × Locator) :=
  match Css.query l.document selector with
  | .error error => .error (.selector error)
  | .ok none => .error (.noMatch (pickFlag scope) selector)
  | .ok (some n) => do .ok (n, ← (l.pick scope n).mapError .locator)

/-- Includes attribute values from the first to the last. -/
def includeAll (l : Locator) : List Include → Except Failure Locator
  | [] => .ok l
  | item :: rest =>
    match l.toggle item.scope item.index item.name item.value true with
    | .error error => .error (.locator error)
    | .ok (_, l) => includeAll l rest

/-- The picked nodes and their refined locators. -/
structure Picks where
  main : NodeId
  relative : Option NodeId
  locator : Locator

/-- Picks what the options select in a document, and includes what they name. -/
def Options.picks (options : Options) (d : Document) (config : Config) : Except Failure Picks := do
  let (main, l) ← pickFirst (Locator.start d config) .main options.pick
  match options.relative with
  | none => .ok ⟨main, none, ← includeAll l options.includes⟩
  | some selector => do
    let (relative, l) ← pickFirst l .relative selector
    .ok ⟨main, some relative, ← includeAll l options.includes⟩

/-! ### Printing -/

/-- A computation that prints and may fail. -/
abbrev Printing := ExceptT Failure (StateM String)

/-- Prints a text behind what is printed already. -/
def print (text : String) : Printing Unit := modify (· ++ text)

/-- Goes on with a result, or fails. -/
def orFail {α : Type} : Except Failure α → Printing α
  | .ok a => pure a
  | .error failure => throw failure

/-- Prints the query of a scope, and whether it finds the picked node. -/
def printQuery (l : Locator) (scope : Scope) (picked : NodeId) : Printing Unit := do
  let found ← orFail ((l.findScope scope).mapError .locator)
  let verdict := if found = some picked then "picked node" else "a different node"
  print s!"{scope.name} ({l.grammar.name}): {l.query scope}\n  resolves to {verdict}\n"

/-- Prints the queries of all picks. -/
def printQueries (picks : Picks) : Printing Unit := do
  printQuery picks.locator .main picks.main
  match picks.relative with
  | none => pure ()
  | some n => do
    printQuery picks.locator .relative n
    if !picks.locator.hasCommonAncestor then print "  no common ancestor; query is absolute\n"

/-- Prints what the options ask for. -/
def printAll (options : Options) (s : Surroundings) : Printing Unit := do
  let config ← orFail ((options.settings s).mapError .settings)
  let markup ← orFail ((s.files options.file).mapError (.unreadable options.file))
  let d ← orFail (options.document markup)
  if options.dumpDom then print (d.toJson.pretty ++ "\n")
  let picks ← orFail (options.picks d config)
  printQueries picks
  if options.tree then print picks.locator.tree.text

/-! ### Outcome -/

/-- How a run ends: with an exit code, and with texts for the user and about failures. -/
structure Outcome where
  code : UInt8
  output : String
  errors : String
  deriving Repr, DecidableEq

/-- The outcome of printing. A run that fails ends with the code 1. -/
def Outcome.ofPrinting (printing : Printing Unit) : Outcome :=
  match printing.run.run "" with
  | (.ok (), output) => ⟨0, output, ""⟩
  | (.error failure, output) => ⟨1, output, failure.report⟩

/-- Runs the program on its arguments. Where these cannot be understood, the usage is shown too. -/
def run (arguments : List String) (s : Surroundings) : Outcome :=
  match Options.parse arguments with
  | .error error => ⟨1, "", usage ++ "\n" ++ (Failure.arguments error).report⟩
  | .ok options => Outcome.ofPrinting (printAll options s)

end ElementLocator.CommandLine
