import Publication.Program
import Publication.FileSystem.Operations

/-!
Renderers: what typesets a LaTeX document and turns the result into an image. A compiler decides
what is rendered; a renderer only knows how.
-/

namespace Publication.Latex

/-- Why an image was not rendered. -/
inductive RenderError where
  /-- A program could not be started. -/
  | unstarted (program : String) (error : FileError)
  /-- A program ended badly, and the end of what it said. -/
  | failed (program : String) (status : ExitStatus) (log : String)
  /-- A program took longer than so many seconds. -/
  | timedOut (program : String) (seconds : Nat)
  | file (error : FileError)
deriving Repr, DecidableEq

def RenderError.message : RenderError → String
  | .unstarted program e => "failed to start " ++ program ++ ": " ++ e.message
  | .failed program status log => program ++ " exited with " ++ status.text ++ "\n" ++ log
  | .timedOut program seconds => program ++ " timed out after " ++ toString seconds ++ "s"
  | .file e => "IO error: " ++ e.message

/-- A document to typeset. -/
structure TypesetJob where
  source : Path
  /-- Where the result goes. -/
  outputDir : Path
  /-- The directory that the tool runs in. -/
  workingDir : Path
deriving Repr, DecidableEq

/-- A typeset document to turn into an image. -/
structure RasterJob where
  pdf : Path
  png : Path
  /-- Where the tool may write what it says. -/
  logDir : Path
deriving Repr, DecidableEq

/-- A job given to a renderer, and the text of the document to typeset. -/
inductive Call where
  | typeset (job : TypesetJob) (text : String)
  | rasterize (job : RasterJob)
deriving Repr, DecidableEq

def Call.isTypeset : Call → Bool
  | .typeset _ _ => true
  | .rasterize _ => false

/-- What rendering works on: the files, and the calls made so far. -/
structure Bench where
  files : FileSystem
  calls : List Call := []

/-- A piece of work with files: what was done before a failure stays done. -/
abbrev Work (ε α : Type) := ExceptT ε (StateM Bench) α

/-- Does a job, given the calls made before it, and says what becomes of the files. -/
abbrev Tool (Job : Type) := List Call → Job → FileSystem → Except RenderError Unit × FileSystem

/-- What typesets documents, and what turns the results into images. -/
structure Renderer where
  typeset : Tool TypesetJob
  rasterize : Tool RasterJob

/-- Work on the files alone. -/
def onFiles {ε ε' α : Type} (convert : ε → ε') (task : ExceptT ε (StateM FileSystem) α) :
    Work ε' α := fun bench =>
  match task bench.files with
  | (.ok a, files) => (.ok a, ⟨files, bench.calls⟩)
  | (.error e, files) => (.error (convert e), ⟨files, bench.calls⟩)

/-- A change of the files that fails without an effect. -/
def revise {ε : Type} (change : FileSystem → Except ε FileSystem) : Work ε Unit := fun bench =>
  match change bench.files with
  | .ok files => (.ok (), ⟨files, bench.calls⟩)
  | .error e => (.error e, bench)

def call {Job : Type} (tool : Tool Job) (job : Job) (note : Call) : Work RenderError Unit :=
  fun bench =>
    let (result, files) := tool bench.calls job bench.files
    (result, ⟨files, bench.calls ++ [note]⟩)

end Publication.Latex
