import ElementLocator.Config.Reading

/-!
# Settings in a file

A file is read as a whole, and then its text is read as settings. Either can fail.
-/

namespace ElementLocator

/-- Why a file cannot be read as a text. -/
inductive FileFault where
  | notFound
  | isDirectory
  | notDirectory
  | permissionDenied
  | invalidText
  | other (message : String)
  deriving Repr, DecidableEq

/-- The fault in words. -/
def FileFault.message : FileFault → String
  | .notFound => "No such file or directory (os error 2)"
  | .permissionDenied => "Permission denied (os error 13)"
  | .notDirectory => "Not a directory (os error 20)"
  | .isDirectory => "Is a directory (os error 21)"
  | .invalidText => "stream did not contain valid UTF-8"
  | .other message => message

/-- Reads the file at a path. -/
abbrev Files := String → Except FileFault String

namespace Config

/-- Why a file holds no settings. -/
inductive FileError where
  | unreadable (fault : FileFault)
  | invalid (error : Json.Error)
  deriving Repr, DecidableEq

/-- What lies behind the error, in words. -/
def FileError.cause : FileError → String
  | .unreadable fault => fault.message
  | .invalid error => error.message

/-- The error in words. -/
def FileError.message : FileError → String
  | .unreadable fault => "cannot read config: " ++ fault.message
  | .invalid error => "invalid config: " ++ error.message

/-- The settings in a file. -/
def ofFile (files : Files) (path : String) : Except FileError Config :=
  match files path with
  | .error fault => .error (.unreadable fault)
  | .ok text => (ofJsonText text).mapError .invalid

end Config

end ElementLocator
