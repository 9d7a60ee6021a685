import Publication.FileSystem.Error
import Publication.Path

/-!
A tree of files and directories, and what paths lead to in it. A path is followed piece by piece;
each piece but the last has to be a directory.
-/

namespace Publication

open Publication.Text

/-- A place in the tree: the names that lead to it from the root. -/
abbrev Location := List String

/-- What is at a place. -/
inductive Entry where
  | file (bytes : List UInt8) (executable : Bool)
  | directory
deriving Repr, DecidableEq

/-- Files and directories by their places. The root is always there. There are no links, and nobody
is refused anything: of the rights to a file only that to run it is kept. -/
structure FileSystem where
  /-- The directory from which relative paths lead. -/
  here : Location
  entries : List (Location × Entry)
deriving Repr, DecidableEq

namespace FileSystem

def find? (place : Location) : List (Location × Entry) → Option Entry
  | [] => none
  | (l, entry) :: rest => if l = place then some entry else find? place rest

/-- What is at a place, if anything. -/
def entry? (fs : FileSystem) (place : Location) : Option Entry :=
  if place.isEmpty then some .directory else find? place fs.entries

def replace (place : Location) (entry : Entry) : List (Location × Entry) → List (Location × Entry)
  | [] => [(place, entry)]
  | (l, old) :: rest =>
      if l = place then (place, entry) :: rest else (l, old) :: replace place entry rest

def put (fs : FileSystem) (place : Location) (entry : Entry) : FileSystem :=
  ⟨fs.here, replace place entry fs.entries⟩

/-- Removes what is at a place and below it. -/
def drop (fs : FileSystem) (place : Location) : FileSystem :=
  ⟨fs.here, fs.entries.filter fun (l, _) => !place.isPrefixOf l⟩

/-- The place that one piece of a path leads to from a directory. -/
def step (fs : FileSystem) (place : Location) (piece : List Char) : Except FileError Location :=
  match fs.entry? place with
  | none => .error .notFound
  | some (.file _ _) => .error .notDirectory
  | some .directory =>
      if piece = [] || piece = ['.'] then .ok place
      else if piece = ['.', '.'] then .ok place.dropLast
      else .ok (place ++ [String.ofList piece])

/-- Follows the pieces of a path. -/
def follow (fs : FileSystem) : Location → List (List Char) → Except FileError Location
  | place, [] => .ok place
  | place, piece :: rest =>
      match fs.step place piece with
      | .ok next => fs.follow next rest
      | .error e => .error e

/-- The place that a path leads to. Nothing need be there yet, but the directory it is in is. -/
def locate (fs : FileSystem) (path : Path) : Except FileError Location :=
  if path.isEmpty then .error .notFound
  else
    fs.follow (if path.isAbsolute then [] else fs.here) (splitOn '/' path.text.toList)

/-- What a path leads to. -/
def at? (fs : FileSystem) (path : Path) : Except FileError Entry :=
  match fs.locate path with
  | .ok place =>
      match fs.entry? place with
      | some entry => .ok entry
      | none => .error .notFound
  | .error e => .error e

/-- Whether a path leads to something. -/
def isPresent (fs : FileSystem) (path : Path) : Bool :=
  match fs.at? path with
  | .ok _ => true
  | .error _ => false

def isDirectory (fs : FileSystem) (path : Path) : Bool :=
  match fs.at? path with
  | .ok .directory => true
  | _ => false

def isFile (fs : FileSystem) (path : Path) : Bool :=
  match fs.at? path with
  | .ok (.file _ _) => true
  | _ => false

/-- The octets of a file. -/
def read (fs : FileSystem) (path : Path) : Except FileError (List UInt8) :=
  match fs.at? path with
  | .ok (.file bytes _) => .ok bytes
  | .ok .directory => .error .isDirectory
  | .error e => .error e

end FileSystem
end Publication
