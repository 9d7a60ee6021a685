import Publication.FileSystem.Basic
import Publication.Text.Utf8

/-!
Operations on files. Each fails without an effect, except for the making of a whole chain of
directories, which keeps those that it made before it failed.
-/

namespace Publication.FileSystem

open Publication.Text

/-- A sequence of operations: what was done before a failure stays done. -/
abbrev Task (α : Type) := ExceptT FileError (StateM FileSystem) α

/-- An operation that fails without an effect, as a step of a sequence. -/
def perform (op : FileSystem → Except FileError FileSystem) : Task Unit := fun fs =>
  match op fs with
  | .ok fs => (.ok (), fs)
  | .error e => (.error e, fs)

def readText (fs : FileSystem) (path : Path) : Except FileError String :=
  match fs.read path with
  | .ok bytes =>
      match ofUtf8? bytes with
      | some text => .ok text
      | none => .error .notText
  | .error e => .error e

/-- A path without the separators at its end, if that leaves anything. -/
def withoutSlashes (path : Path) : Path :=
  match path.text.toList.reverse.dropWhile (· = '/') with
  | [] => path
  | reversed => ⟨String.ofList reversed.reverse⟩

def endsInSlash (path : Path) : Bool := path.text.toList.getLast? == some '/'

/-- The place of a file that is to be written. -/
def target (fs : FileSystem) (path : Path) : Except FileError Location :=
  if endsInSlash path then
    match fs.locate (withoutSlashes path) with
    | .ok _ => .error .isDirectory
    | .error e => .error e
  else
    match fs.locate path with
    | .ok place =>
        match fs.entry? place with
        | some .directory => .error .isDirectory
        | _ => .ok place
    | .error e => .error e

/-- Whether a place holds a file that may be run. -/
def isExecutable (fs : FileSystem) (place : Location) : Bool :=
  match fs.entry? place with
  | some (.file _ executable) => executable
  | _ => false

/-- Writes a file, instead of the one that is there. -/
def write (fs : FileSystem) (path : Path) (bytes : List UInt8) : Except FileError FileSystem :=
  match fs.target path with
  | .ok place => .ok (fs.put place (.file bytes (fs.isExecutable place)))
  | .error e => .error e

/-- Writes a text to a file. -/
def writeText (fs : FileSystem) (path : Path) (text : String) : Except FileError FileSystem :=
  fs.write path (utf8 text)

def makeDirectory (fs : FileSystem) (path : Path) : Except FileError FileSystem :=
  match fs.locate (withoutSlashes path) with
  | .ok place =>
      match fs.entry? place with
      | some _ => .error .alreadyExists
      | none => .ok (fs.put place .directory)
  | .error e => .error e

/-- Makes a directory unless it is there. -/
def ensureDirectory (path : Path) : Task Unit := fun fs =>
  match fs.makeDirectory path with
  | .ok fs => (.ok (), fs)
  | .error e => if fs.isDirectory path then (.ok (), fs) else (.error e, fs)

/-- Makes a directory and those that it is to be in, unless they are there. The fuel bounds the
number of components. -/
def makeChain : Nat → Path → Task Unit
  | 0, path => ensureDirectory path
  | fuel + 1, path => fun fs =>
      if path.isEmpty then (.ok (), fs)
      else
        match fs.makeDirectory path, path.parent? with
        | .error .notFound, some parent =>
            match makeChain fuel parent fs with
            | (.ok (), fs) => ensureDirectory path fs
            | failed => failed
        | _, _ => ensureDirectory path fs

def makeDirectories (path : Path) : Task Unit := makeChain (path.components.length + 1) path

/-- Copies a file. The target is emptied before the source is read, so a file copied onto itself is
emptied. -/
def copy (fs : FileSystem) (source path : Path) : Except FileError FileSystem :=
  match fs.locate source with
  | .error e => .error e
  | .ok place =>
      match fs.entry? place with
      | none => .error .notFound
      | some .directory => .error .notRegular
      | some (.file bytes executable) =>
          match fs.target path with
          | .error e => .error e
          | .ok goal => .ok (fs.put goal (.file (if goal = place then [] else bytes) executable))

/-- Writes a file under a new name beside the path and renames it to the path. Nothing changes
where that fails. -/
def replaceFile (fs : FileSystem) (path : Path) (bytes : List UInt8) :
    Except FileError FileSystem :=
  if endsInSlash path then
    match fs.locate (withoutSlashes path) with
    | .ok _ => .error .notDirectory
    | .error e => .error e
  else
    match fs.locate path with
    | .ok place =>
        match fs.entry? place with
        | some .directory => .error .isDirectory
        | _ => .ok (fs.put place (.file bytes false))
    | .error e => .error e

/-- Removes a file or a whole directory. -/
def remove (fs : FileSystem) (path : Path) : Except FileError FileSystem :=
  match fs.locate path with
  | .ok place =>
      match fs.entry? place with
      | some _ => .ok (fs.drop place)
      | none => .error .notFound
  | .error e => .error e

/-- Everything below a place, with the names that lead to it from there. -/
def below (fs : FileSystem) (place : Location) : List (Location × Entry) :=
  (fs.entries.filter fun (l, _) => place.isPrefixOf l && place.length < l.length).map
    fun (l, entry) => (l.drop place.length, entry)

/-- Everything below a directory, with the names that lead to it from there. -/
def listing (fs : FileSystem) (path : Path) : List (Location × Entry) :=
  match fs.locate path with
  | .ok place => fs.below place
  | .error _ => []

end Publication.FileSystem
