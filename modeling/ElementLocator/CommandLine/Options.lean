import ElementLocator.CommandLine.Include

/-!
# Arguments of the command line

One argument names the file, and the others are switches and flags that take the next argument as their value,
whatever it looks like. The last value of a flag counts, except that refinements add up.
-/

namespace ElementLocator.CommandLine

/-- How the program is called. -/
def usage : String :=
  "Usage:\n  selpath <FILE> --pick <CSS> [--relative <CSS>] [--include <main|relative>:<index>:<name>=<value>]... " ++
    "[--xpath] [--fragment] [--tree] [--dump-dom] [--config <JSON>]"

/-- What is asked for. -/
structure Options where
  file : String
  pick : String
  relative : Option String := none
  includes : List Include := []
  xpath : Bool := false
  fragment : Bool := false
  tree : Bool := false
  dumpDom : Bool := false
  config : Option String := none
  deriving Repr, DecidableEq

/-- The files that may be read. -/
def Options.paths (options : Options) : List String := options.file :: options.config.toList

/-- Why arguments cannot be understood. -/
inductive ArgumentError where
  | missingValue (flag : String)
  | badInclude (text : String) (fault : IncludeFault)
  | unknownFlag (flag : String)
  | unexpected (argument : String)
  | missingFile
  | missingPick
  deriving Repr, DecidableEq

/-- The error in words. -/
def ArgumentError.message : ArgumentError → String
  | .missingValue flag => flag ++ " requires a value"
  | .badInclude text fault => "--include " ++ Text.codeSpan text ++ ": " ++ fault.message
  | .unknownFlag flag => "unknown flag " ++ flag
  | .unexpected argument => "unexpected argument " ++ argument
  | .missingFile => "missing <FILE>"
  | .missingPick => "--pick is required"

/-- The flags that take a value. -/
inductive ValueFlag where
  | pick
  | relative
  | inclusion
  | config
  deriving Repr, DecidableEq

/-- The spelling of a flag. -/
def ValueFlag.text : ValueFlag → String
  | .pick => "--pick"
  | .relative => "--relative"
  | .inclusion => "--include"
  | .config => "--config"

/-- The flag with the given spelling. -/
def ValueFlag.ofText? (argument : String) : Option ValueFlag :=
  [pick, relative, inclusion, config].find? (·.text == argument)

/-- The switches. -/
inductive Switch where
  | xpath
  | fragment
  | tree
  | dumpDom
  deriving Repr, DecidableEq

/-- The spelling of a switch. -/
def Switch.text : Switch → String
  | .xpath => "--xpath"
  | .fragment => "--fragment"
  | .tree => "--tree"
  | .dumpDom => "--dump-dom"

/-- The switch with the given spelling. -/
def Switch.ofText? (argument : String) : Option Switch :=
  [xpath, fragment, tree, dumpDom].find? (·.text == argument)

/-- The arguments read so far. -/
structure Draft where
  file : Option String := none
  pick : Option String := none
  relative : Option String := none
  includes : List Include := []
  xpath : Bool := false
  fragment : Bool := false
  tree : Bool := false
  dumpDom : Bool := false
  config : Option String := none
  deriving Repr, DecidableEq

namespace Draft

/-- Takes in the value of a flag. -/
def setValue (draft : Draft) (value : String) : ValueFlag → Except ArgumentError Draft
  | .pick => .ok { draft with pick := some value }
  | .relative => .ok { draft with relative := some value }
  | .config => .ok { draft with config := some value }
  | .inclusion => match Include.parse value with
    | .ok item => .ok { draft with includes := draft.includes ++ [item] }
    | .error fault => .error (.badInclude value fault)

/-- Takes in a switch. -/
def turnOn (draft : Draft) : Switch → Draft
  | .xpath => { draft with xpath := true }
  | .fragment => { draft with fragment := true }
  | .tree => { draft with tree := true }
  | .dumpDom => { draft with dumpDom := true }

/-- Takes in an argument that is neither a known flag nor a value: the file. -/
def setFile (draft : Draft) (argument : String) : Except ArgumentError Draft :=
  if ['-', '-'].isPrefixOf argument.toList then .error (.unknownFlag argument)
  else if draft.file.isSome then .error (.unexpected argument)
  else .ok { draft with file := some argument }

/-- Takes in arguments from the left to the right. -/
def read (draft : Draft) : List String → Except ArgumentError Draft
  | [] => .ok draft
  | argument :: rest =>
    match ValueFlag.ofText? argument with
    | some flag => match rest with
      | [] => .error (.missingValue argument)
      | value :: later => do (← draft.setValue value flag).read later
    | none => match Switch.ofText? argument with
      | some switch => (draft.turnOn switch).read rest
      | none => do (← draft.setFile argument).read rest

/-- The options, if nothing is missing. -/
def complete (draft : Draft) : Except ArgumentError Options :=
  match draft.file, draft.pick with
  | none, _ => .error .missingFile
  | some _, none => .error .missingPick
  | some file, some pick => .ok
    { file, pick, relative := draft.relative, includes := draft.includes, xpath := draft.xpath,
      fragment := draft.fragment, tree := draft.tree, dumpDom := draft.dumpDom, config := draft.config }

end Draft

/-- The options that the arguments ask for. -/
def Options.parse (arguments : List String) : Except ArgumentError Options := do
  (← ({} : Draft).read arguments).complete

end ElementLocator.CommandLine
