import Publication.Catalog.Basic
import Publication.FileSystem.Operations
import Publication.Record

/-!
Catalogs in files. A file that is not there or is blank holds the empty catalog.
-/

namespace Publication.Catalog

open Publication.Json

/-- Why a catalog or a record was not read or written. -/
inductive Error where
  | file (error : FileError)
  | text (error : ReadError)
deriving Repr, DecidableEq

def ofText (text : String) : Except ReadError Catalog :=
  if Text.allBlank text.toList then .ok {}
  else (readAll (readSequence Record.read) text).map fun entries => ⟨entries⟩

def toText (catalog : Catalog) : String :=
  pretty (.array (catalog.entries.map Record.toJson)) ++ "\n"

def load (fs : FileSystem) (path : Path) : Except Error Catalog :=
  match fs.readText path with
  | .error .notFound => .ok {}
  | .error e => .error (.file e)
  | .ok text =>
      match ofText text with
      | .ok catalog => .ok catalog
      | .error e => .error (.text e)

def readRecord (fs : FileSystem) (path : Path) : Except Error Record :=
  match fs.readText path with
  | .error e => .error (.file e)
  | .ok text =>
      match Record.ofText text with
      | .ok record => .ok record
      | .error e => .error (.text e)

/-- Writes a catalog to a file, all or nothing. The directory is made if it is not there. -/
def save (catalog : Catalog) (path : Path) : FileSystem.Task Unit := do
  FileSystem.makeDirectories path.directory
  FileSystem.perform fun fs => fs.replaceFile path (Text.utf8 catalog.toText)

end Publication.Catalog
