import Publication.Config.Decode
import Publication.FileSystem.Operations
import Publication.Toml.Reader

/-!
Settings for a document: the defaults, and over them the file that is given or the one that lies
beside the document.
-/

namespace Publication.Config

open Publication.Toml

/-- Why there are no settings. -/
inductive Error where
  | file (error : FileError)
  /-- The file is not TOML. -/
  | malformed
  /-- The file does not hold settings. -/
  | shape (error : DecodeError)
  | invalid (reason : Invalid)
deriving Repr, DecidableEq

/-- The error in words. What is wrong with a file that is not TOML is not told. -/
def Error.message : Error → String
  | .file e => "IO error: " ++ e.message
  | .malformed => "TOML parse error"
  | .shape e => "TOML parse error: " ++ e.message
  | .invalid reason => "Config validation error: " ++ reason.message

/-- The name of the file that lies beside documents. -/
def fileName : String := "pubgen.toml"

/-- The defaults as a table. -/
def defaults : Value := Config.toToml {}

/-- The settings that a value holds with another one laid over it. -/
def resolve (base : Value) (overlay : Option Value) : Except Error Config :=
  let merged := match overlay with
    | some overlay => merge base overlay
    | none => base
  match decode merged with
  | .error e => .error (.shape e)
  | .ok config =>
      match config.invalid? with
      | some reason => .error (.invalid reason)
      | none => .ok config

def readValue (fs : FileSystem) (path : Path) : Except Error Value :=
  match fs.readText path with
  | .error e => .error (.file e)
  | .ok text =>
      match parse? text with
      | some value => .ok value
      | none => .error .malformed

/-- The settings of a file that has to be there. -/
def loadFile (fs : FileSystem) (path : Path) : Except Error Config :=
  match readValue fs path with
  | .ok value => resolve defaults (some value)
  | .error e => .error e

/-- The settings of a directory, which are the defaults if it has no file of them. -/
def loadDirectory (fs : FileSystem) (dir : Path) : Except Error Config :=
  let path := dir.child fileName
  if fs.isPresent path then loadFile fs path else resolve defaults none

/-- What a command says about the settings. -/
structure Options where
  /-- The file of settings, instead of the one beside the document. -/
  config : Option Path := none
  noThumbnail : Bool := false

/-- The settings for a document. -/
def effective (fs : FileSystem) (input : Path) (options : Options) : Except Error Config :=
  let loaded := match options.config with
    | some path => loadFile fs path
    | none => loadDirectory fs input.directory
  loaded.map fun config =>
    if options.noThumbnail then
      { config with thumbnails := { config.thumbnails with enabled := false } }
    else config

end Publication.Config
