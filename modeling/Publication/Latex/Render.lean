import Publication.Latex.Renderer

/-!
Rendering a LaTeX document into an image. The work is done in a scratch directory, which is removed
however it ends.
-/

namespace Publication.Latex

def scratchName (n : Nat) : String := "pubgen-latex-" ++ toString n

/-- The directory of scratch directories. -/
def scratchRoot : Location := ["tmp"]

/-- The place of a scratch directory that is not there yet. -/
def freshScratch (fs : FileSystem) : Location :=
  let free := (List.range (fs.entries.length + 1)).find? fun n =>
    (fs.entry? (scratchRoot ++ [scratchName n])).isNone
  scratchRoot ++ [scratchName (free.getD 0)]

/-- The path that leads to a place from the root. -/
def pathTo (place : Location) : Path := ⟨"/" ++ String.intercalate "/" place⟩

/-- The passes after which references and sizes are settled. -/
def typesetPasses : Nat := 2

/-- Typesets a document as often as said. -/
def typesetAll (renderer : Renderer) (job : TypesetJob) (source : String) :
    Nat → Work RenderError Unit
  | 0 => pure ()
  | n + 1 => do
      call renderer.typeset job (.typeset job source)
      typesetAll renderer job source n

/-- Renders a document into an image, and copies the typeset document if a path for it is given.
The scratch directory is there already. -/
def renderIn (scratch : Path) (renderer : Renderer) (baseDir : Path) (source : String) (png : Path)
    (pdf : Option Path) : Work RenderError Unit := do
  let texFile := scratch.child "file.tex"
  onFiles .file (FileSystem.perform fun fs => fs.writeText texFile source)
  typesetAll renderer ⟨texFile, scratch, baseDir⟩ source typesetPasses
  match png.parent? with
  | some dir => onFiles .file (FileSystem.makeDirectories dir)
  | none => pure ()
  let typeset := scratch.child "file.pdf"
  let job : RasterJob := ⟨typeset, png, scratch⟩
  call renderer.rasterize job (.rasterize job)
  match pdf with
  | some pdf => onFiles .file (FileSystem.perform fun fs => fs.copy typeset pdf)
  | none => pure ()

/-- Renders a document into an image, and copies the typeset document if a path for it is given. -/
def render (renderer : Renderer) (baseDir : Path) (source : String) (png : Path)
    (pdf : Option Path) : Work RenderError Unit := fun bench =>
  let place := freshScratch bench.files
  match bench.files.makeDirectory (pathTo place) with
  | .error e => (.error (.file e), bench)
  | .ok files =>
      let (result, bench) :=
        renderIn (pathTo place) renderer baseDir source png pdf ⟨files, bench.calls⟩
      (result, ⟨bench.files.drop place, bench.calls⟩)

end Publication.Latex
