import Publication.Hash.Sha256
import Publication.Latex.Block
import Publication.Latex.Cache
import Publication.Latex.Reference
import Publication.Latex.Render
import Publication.Latex.Usage
import Publication.Naming.Registry
import Publication.Naming.Slug

/-!
Compiling the LaTeX regions of a document in order. A region becomes an image, unless it extends the
preamble of those behind it; an image that was rendered from the same source is kept.
-/

namespace Publication.Latex

open Publication.Naming

/-- What is known between two regions. -/
structure Compiler where
  baseDir : Path
  /-- The directory of the images, seen from the base directory. -/
  imageDir : String
  preamble : String := ""
  names : Registry := .empty
  usage : Usage := {}
deriving Repr, DecidableEq

/-- A compiler and the files that it works on. -/
structure Workshop where
  compiler : Compiler
  bench : Bench

/-- Why a region was not compiled. -/
inductive Error where
  | malformed (raw : String)
  /-- The block whose body begins so was not rendered. -/
  | unrendered (snippet : String) (error : RenderError)
  | cache (error : CacheError)
deriving Repr, DecidableEq

def Error.message : Error → String
  | .malformed raw => "malformed LaTeX block:\n" ++ raw
  | .unrendered snippet e =>
      "failed to render LaTeX block \x60" ++ snippet ++ "\x60: " ++ e.message
  | .cache e => "LaTeX cache error: " ++ e.message

/-- Work of a compiler: what was done before a failure stays done. -/
abbrev Compiling (α : Type) := ExceptT Error (StateM Workshop) α

/-- Whether an image was kept or rendered. -/
inductive Outcome where
  | cached
  | rendered
deriving Repr, DecidableEq

/-- What a document begins with. -/
def templateHead : String :=
  "\\documentclass[border=0pt]\x7bstandalone\x7d\n\n\\usepackage\x7bamsmath\x7d\n"
    ++ "\\usepackage\x7bamssymb\x7d\n\n\\usepackage\x7bgraphicx\x7d\n\n\\usepackage\x7btikz\x7d\n"
    ++ "\\usetikzlibrary\x7bpositioning\x7d\n\n"

/-- The most characters of a body that an error shows. -/
def snippetLength : Nat := 120

/-- The beginning of a body. -/
def snippet (body : String) : String :=
  let text := Text.trim body.toList
  if snippetLength < text.length then String.ofList (text.take snippetLength ++ ['…'])
  else String.ofList text

/-- The name of an image whose alternative text has no letters or digits. -/
def fallbackName : String := "latex"

/-- The name from which that of an image is derived. -/
def imageBase [Transliteration] (alt : String) : String :=
  let slug := slugify '_' alt
  if slug.isEmpty then fallbackName else slug

namespace Compiler

/-- A compiler that has seen nothing yet. -/
def start (baseDir : Path) (imageDir : String) : Compiler where
  baseDir := if baseDir.isEmpty then ⟨"."⟩ else baseDir
  imageDir := String.ofList (imageDir.toList.reverse.dropWhile (· = '/')).reverse

/-- The document for a body under the preamble so far. -/
def compose (compiler : Compiler) (body : String) : String :=
  templateHead ++ compiler.preamble ++ "\n\\begin\x7bdocument\x7d\n" ++ body
    ++ "\n\\end\x7bdocument\x7d\n"

/-- A file among the images, seen from the base directory. -/
def relative (compiler : Compiler) (file : String) : String :=
  if compiler.imageDir.isEmpty || compiler.imageDir = "." then file
  else compiler.imageDir ++ "/" ++ file

end Compiler

/-- Does work on the files of a compiler. -/
def onBench {ε α : Type} (convert : ε → Error) (work : Work ε α) : Compiling α := fun shop =>
  match work shop.bench with
  | (.ok a, bench) => (.ok a, ⟨shop.compiler, bench⟩)
  | (.error e, bench) => (.error (convert e), ⟨shop.compiler, bench⟩)

def note (change : Compiler → Compiler) : Compiling Unit :=
  modify fun shop => ⟨change shop.compiler, shop.bench⟩

/-- Whether an image was rendered from the source with a hash, and the typeset document is there if
it is wanted. -/
def isCurrent (fs : FileSystem) (png : Path) (pdf : Option Path) (hash : String) : Bool :=
  (pdf.map fs.isPresent).getD true && storedHash fs png == some hash

/-- Renders a body into an image, unless the image is current. -/
def renderOrReuse (renderer : Renderer) (body : String) (png : Path) (pdf : Option Path) :
    Compiling Outcome := do
  let shop ← get
  let source := shop.compiler.compose body
  let hash := Hash.Sha256.hexDigest source
  if isCurrent shop.bench.files png pdf hash then
    note fun c => { c with usage := c.usage.hit }
    return .cached
  onBench (.unrendered (snippet body)) (render renderer shop.compiler.baseDir source png pdf)
  onBench .cache (revise fun fs => storeHash fs png hash)
  note fun c => { c with usage := c.usage.miss }
  return .rendered

section

variable [Transliteration]

/-- Compiles a block that is to become an image, and returns the markdown that stands in for it. -/
def compileBlock (renderer : Renderer) (block : Block) : Compiling String := do
  let compiler := (← get).compiler
  let (id, names) := compiler.names.claim (imageBase block.alt)
  note fun c => { c with names := names }
  let png := compiler.relative (id ++ ".png")
  let pdf := if block.wantPdf then some (compiler.relative (id ++ ".pdf")) else none
  let place (file : String) : Path := compiler.baseDir.child file
  let _ ← renderOrReuse renderer block.body (place png) (pdf.map place)
  return imageReference block.alt png pdf

/-- Compiles a region, and returns the markdown that stands in for it. -/
def compileRegion (renderer : Renderer) (raw : String) : Compiling String :=
  match Block.parse? raw with
  | none => throw (.malformed raw)
  | some block =>
      if block.isPreamble then do
        note fun c => { c with preamble := c.preamble ++ block.body }
        return ""
      else compileBlock renderer block

/-- Compiles the regions among the parts of a body in order, and returns the markdown of all. -/
def expandParts (renderer : Renderer) : List Part → Compiling String
  | [] => return ""
  | .markdown text :: rest => do
      let more ← expandParts renderer rest
      return String.ofList text ++ more
  | .latex raw :: rest => do
      let text ← compileRegion renderer (String.ofList raw)
      let more ← expandParts renderer rest
      return text ++ more

/-- Compiles the regions of a body in order, and returns the markdown of all of it. -/
def expand (renderer : Renderer) (body : String) : Compiling String :=
  expandParts renderer (parts body.toList)

/-- Compiles the regions of a document under a compiler of its own. Returns the markdown and how
many images were kept and rendered. -/
def expandDocument (renderer : Renderer) (baseDir : Path) (imageDir body : String) :
    Work Error (String × Usage) := fun bench =>
  let (result, shop) := expand renderer body ⟨.start baseDir imageDir, bench⟩
  (result.map fun markdown => (markdown, shop.compiler.usage), shop.bench)

end

end Publication.Latex
