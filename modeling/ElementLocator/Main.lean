import ElementLocator.CommandLine.Run

/-!
# The program

The outermost layer reads the files and variables that a run may ask for, and shows its outcome.
-/

namespace ElementLocator.CommandLine

/-- The number of a system error, which some calls give with the opposite sign. -/
def errorNumber (code : UInt32) : Nat := code.toInt32.toInt.natAbs

/-- The fault behind a system error. A path that leads through a file is told from a directory by its number. -/
def faultOf : IO.Error → FileFault
  | .noFileOrDirectory _ _ _ => .notFound
  | .permissionDenied _ _ _ => .permissionDenied
  | .inappropriateType _ code _ => if errorNumber code = 20 then .notDirectory else .isDirectory
  | error => .other (toString error)

/-- Reads a file as a text. -/
def readText (path : String) : IO (Except FileFault String) := do
  try
    match String.fromUTF8? (← IO.FS.readBinFile path) with
    | some text => return .ok text
    | none => return .error .invalidText
  catch error => return .error (faultOf error)

/-- The surroundings of a run that may read the files at some paths. -/
def readSurroundings (paths : List String) : IO Surroundings := do
  let contents ← paths.mapM fun path => do return (path, ← readText path)
  let values ← [Config.attributesVariable, Config.grammarVariable].mapM fun name => do
    return (name, ← IO.getEnv name)
  return {
    files := fun path => (contents.lookup path).getD (.error .notFound)
    environment := fun name => (values.lookup name).join }

end ElementLocator.CommandLine

open ElementLocator.CommandLine in
/-- Runs the program on its arguments. -/
def main (arguments : List String) : IO UInt32 := do
  let paths := match Options.parse arguments with
    | .ok options => options.paths
    | .error _ => []
  let outcome := run arguments (← readSurroundings paths)
  (← IO.getStdout).putStr outcome.output
  (← IO.getStderr).putStr outcome.errors
  return outcome.code.toUInt32
