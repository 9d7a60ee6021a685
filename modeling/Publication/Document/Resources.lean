import Publication.Document.Node
import Publication.Naming.Registry
import Publication.Path

/-!
Local files that a document refers to. Each reference gets a name of its own in the resource
directory, and is redirected there.
-/

namespace Publication.Document

open Publication.Naming

/-- A file to publish. -/
structure Resource where
  source : Path
  /-- Where it is published, relative to the output directory. -/
  target : String
  /-- Whether the publication fails without it. -/
  essential : Bool
deriving Repr, DecidableEq, Inhabited

/-- The files to publish in the order in which they were claimed, and the names they take up. -/
structure Manifest where
  directory : String
  names : Registry := .empty
  entries : List Resource := []
deriving Repr, DecidableEq

namespace Manifest

/-- Records a file to be published under a name derived from `base`. -/
def claimAs (m : Manifest) (source : Path) (base : String) (essential : Bool) : String × Manifest :=
  let (name, names) := m.names.claim base
  let target := m.directory ++ "/" ++ name
  (target, ⟨m.directory, names, m.entries ++ [⟨source, target, essential⟩]⟩)

/-- Records a file to be published under a name derived from its own. -/
def claim (m : Manifest) (source : Path) (essential : Bool) : String × Manifest :=
  m.claimAs source source.publishedName essential

end Manifest

/-- The attribute by which a node refers to a file. -/
def referenceKey? (node : Node) : Option String :=
  match node.kind with
  | .image => some "src"
  | .link _ => some "href"
  | _ => none

def localFile? (dir : Path) (node : Node) : Option (String × Path) :=
  (referenceKey? node).bind fun key =>
    (node.attr? key).bind fun url => (Path.ofReference? url dir).map fun source => (key, source)

/-- Records the local file that a node refers to, and redirects the reference. -/
def Manifest.visit (dir : Path) (m : Manifest) (node : Node) : Node × Manifest :=
  match localFile? dir node with
  | some (key, source) =>
      let (target, m) := m.claim source false
      (node.setAttr key target, m)
  | none => (node, m)

/-- The manifest of the local files that a document refers to, seen from a directory, and the
document with its references rewritten. -/
def extractResources (document : Node) (directory : String) (dir : Path) : Manifest × Node :=
  let (document, m) := document.revise (Manifest.visit dir) { directory := directory }
  (m, document)

end Publication.Document
