import Publication.Text.Blank

/-!
File paths. A path is kept as it is written; what it names is told by its components, among which
repeated separators and single dots do not count, except for a dot that the path begins with.
-/

namespace Publication

open Publication.Text

/-- A path as it is written. -/
structure Path where
  text : String
deriving Repr, DecidableEq, Inhabited

namespace Path

/-- A part of a path. -/
inductive Component where
  | root
  | here
  | up
  | name (name : String)
deriving Repr, DecidableEq

/-- Where a path begins: at the root, at a dot, or with its first name. -/
inductive Start where
  | root
  | here
  | plain
deriving Repr, DecidableEq

/-- The text of a beginning. -/
def Start.text : Start → List Char
  | .root => ['/']
  | .here => ['.']
  | .plain => []

/-- Where a path begins, and the pieces between the separators behind that. -/
def pieces (path : Path) : Start × List (List Char) :=
  match path.text.toList with
  | '/' :: rest => (.root, splitOn '/' rest)
  | ['.'] => (.here, [])
  | '.' :: '/' :: rest => (.here, splitOn '/' ('/' :: rest))
  | text => (.plain, splitOn '/' text)

/-- A piece that names something. -/
def counts (piece : List Char) : Bool := !piece.isEmpty && piece != ['.']

def componentOf (piece : List Char) : Component :=
  if piece = ['.', '.'] then .up else .name (String.ofList piece)

def components (path : Path) : List Component :=
  let (start, found) := path.pieces
  (match start with
    | .root => [.root]
    | .here => [.here]
    | .plain => [])
    ++ (found.filter counts).map componentOf

/-- Whether a path begins at the root. -/
def isAbsolute (path : Path) : Bool := path.text.toList.head? == some '/'

/-- Nothing is written. -/
def isEmpty (path : Path) : Bool := path.text.isEmpty

/-- The path of something inside a directory. An absolute path stays what it is. -/
def join (dir path : Path) : Path :=
  if path.isAbsolute then path
  else
    match dir.text.toList.getLast? with
    | none => path
    | some '/' => ⟨dir.text ++ path.text⟩
    | some _ => ⟨dir.text ++ "/" ++ path.text⟩

/-- `join` with a name. -/
def child (dir : Path) (name : String) : Path := dir.join ⟨name⟩

/-- Pieces without those at the end that do not count. -/
def trimPieces (found : List (List Char)) : List (List Char) :=
  (found.reverse.dropWhile fun piece => !counts piece).reverse

/-- The path without its last component, or nothing where there is none to leave out. -/
def parent? (path : Path) : Option Path :=
  let (start, found) := path.pieces
  match (trimPieces found).reverse, start with
  | _ :: before, _ =>
      let kept := trimPieces before.reverse
      some ⟨String.ofList (start.text ++ List.intercalate ['/'] kept)⟩
  | [], .here => some ⟨""⟩
  | [], _ => none

/-- The directory that a path is in. What has no directory of its own is in the current one. -/
def directory (path : Path) : Path :=
  match path.parent? with
  | some dir => if dir.isEmpty then ⟨"."⟩ else dir
  | none => ⟨"."⟩

/-- The last component, if it is a name. -/
def fileName? (path : Path) : Option String :=
  match path.components.getLast? with
  | some (.name name) => some name
  | _ => none

/-- A file name up to its last dot, unless it begins with that. -/
def stemOf (name : String) : String :=
  let reversed := name.toList.reverse
  match reversed.dropWhile (· ≠ '.') with
  | _ :: before => if before.isEmpty then name else String.ofList before.reverse
  | [] => name

/-- The file name up to its last dot, unless it begins with that. -/
def fileStem? (path : Path) : Option String := path.fileName?.map stemOf

/-- The path with another file name, or with one at its end if it has none. -/
def withFileName (path : Path) (name : String) : Path :=
  match path.fileName?, path.parent? with
  | some _, some dir => dir.child name
  | _, _ => path.child name

/-- The marker of a reference to a local file. -/
def scheme : String := "file://"

/-- The local file that a reference names, seen from a directory, if it names one. -/
def ofReference? (reference : String) (dir : Path) : Option Path :=
  (strip? scheme.toList reference.toList).map fun rest => dir.join ⟨String.ofList rest⟩

/-- The name under which a file is published: its own, if it has one. -/
def publishedName (path : Path) : String := path.fileName?.getD "resource"

end Path
end Publication
