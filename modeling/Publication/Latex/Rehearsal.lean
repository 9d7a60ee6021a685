import Publication.Image.Png
import Publication.Latex.Renderer

/-!
A renderer that plays a script instead of running tools: it writes placeholders for its results, and
fails where the script says so.
-/

namespace Publication.Latex

open Publication.Image

/-- A step of rendering that can be made to fail. -/
inductive Cue where
  /-- The call for typesetting with a number, counted from one. -/
  | typeset (number : Nat)
  | rasterize
deriving Repr, DecidableEq

/-- What is written as an image. -/
inductive Placeholder where
  | picture
  | nothing
  | garbage
deriving Repr, DecidableEq

/-- How a rehearsal goes. -/
structure Script where
  /-- Where it fails, and how. -/
  failure : Option (Cue × RenderError) := none
  /-- Whether typesetting leaves a document. -/
  writesPdf : Bool := true
  image : Placeholder := .picture

namespace Script

def errorAt? (script : Script) (cue : Cue) : Option RenderError :=
  script.failure.bind fun (at', e) => if at' = cue then some e else none

def put (path : Path) (bytes : List UInt8) (fs : FileSystem) :
    Except RenderError Unit × FileSystem :=
  match fs.write path bytes with
  | .ok fs => (.ok (), fs)
  | .error e => (.error (.file e), fs)

/-- The placeholder of a typeset document. -/
def pdfBytes : List UInt8 := Text.utf8 "%PDF-1.4 mock"

/-- The placeholder of an image. -/
def pictureBytes : List UInt8 := (Png.write? (Png.blank 3 2 .rgb 8)).getD []

/-- Plays the typesetting of a document. -/
def typeset (script : Script) : Tool TypesetJob := fun calls job fs =>
  match script.errorAt? (.typeset ((calls.filter Call.isTypeset).length + 1)) with
  | some e => (.error e, fs)
  | none =>
      if script.writesPdf then put (job.outputDir.child "file.pdf") pdfBytes fs else (.ok (), fs)

/-- Plays the making of an image. -/
def rasterize (script : Script) : Tool RasterJob := fun _ job fs =>
  match script.errorAt? .rasterize with
  | some e => (.error e, fs)
  | none =>
      match script.image with
      | .picture => put job.png pictureBytes fs
      | .nothing => (.ok (), fs)
      | .garbage => put job.png (Text.utf8 "not a png") fs

def renderer (script : Script) : Renderer := ⟨script.typeset, script.rasterize⟩

end Script
end Publication.Latex
