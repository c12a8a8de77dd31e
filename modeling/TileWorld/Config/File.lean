import TileWorld.Config.Json

/-!
Reading a configuration from a file. A file that cannot be read is missing or is a directory; all other
errors of the system, as for want of permission, are left out.
-/

namespace TileWorld.Config

inductive FileContent where
  | missing
  | directory
  | bytes (data : ByteArray)

inductive FileError where
  | missing
  | directory
  | notText
deriving DecidableEq

def FileError.message : FileError → String
  | missing => "No such file or directory (os error 2)"
  | directory => "Is a directory (os error 21)"
  | notText => "stream did not contain valid UTF-8"

inductive LoadError where
  | file (cause : FileError)
  | json (cause : Json.Error)
deriving DecidableEq

def LoadError.cause : LoadError → String
  | file e => e.message
  | json e => e.message

def LoadError.message (e : LoadError) : String :=
  match e with
  | file _ => s!"IO error: {e.cause}"
  | json _ => s!"config parse error: {e.cause}"

def FileContent.text : FileContent → Except FileError String
  | missing => .error .missing
  | directory => .error .directory
  | bytes data =>
    match String.fromUTF8? data with
    | some s => .ok s
    | none => .error .notText

/-- The configuration in a file, which is not validated. -/
def ofFile (content : FileContent) : Except LoadError Config :=
  match content.text with
  | .error e => .error (.file e)
  | .ok text =>
    match ofJson text with
    | .error e => .error (.json e)
    | .ok c => .ok c

end TileWorld.Config
