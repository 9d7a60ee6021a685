import Publication.Article.Basic
import Publication.Config.Basic
import Publication.Document.Abstract
import Publication.Document.Parser
import Publication.Header
import Publication.Html
import Publication.Image.Thumbnail
import Publication.Latex.Compiler

/-!
Compiling a manuscript into an article. The LaTeX regions come first, since they turn into markdown;
then the tree is read off in several ways. Nothing is written but images next to the manuscript.
-/

namespace Publication

open Publication.Document

/-- Why a manuscript was not compiled. -/
inductive CompileError where
  | latex (error : Latex.Error)
  | thumbnail (error : Image.Error)
deriving Repr, DecidableEq

def CompileError.message : CompileError → String
  | .latex e => e.message
  | .thumbnail e => "thumbnail failed: " ++ e.message

section

variable [Image.Scaler]

/-- The address of the image of an article, and the manifest with the file behind it. A thumbnail is
published under the name of the image that it is made of; an image that is not a local file is left
where it is. -/
def cover (settings : ThumbnailSettings) (dir : Path) (manifest : Manifest) (image : String) :
    Latex.Work CompileError (String × Manifest) :=
  match Path.ofReference? image dir with
  | none => return (image, manifest)
  | some source =>
      if settings.enabled then do
        let thumbnail := Image.thumbnailPath source
        ExceptT.adapt .thumbnail
          (Latex.revise fun fs => Image.createThumbnail fs source thumbnail settings.size)
        return manifest.claimAs thumbnail source.publishedName true
      else return manifest.claim source true

/-- `cover` where there may be no image. -/
def cover? (settings : ThumbnailSettings) (dir : Path) (manifest : Manifest) :
    Option String → Latex.Work CompileError (Option String × Manifest)
  | none => return (none, manifest)
  | some image => do
      let (address, manifest) ← cover settings dir manifest image
      return (some address, manifest)

end

/-- The title of an article: what the header says, or the first heading, or else its name. -/
def titleOf (header : Header) (contents : List Document.Entry) (name : String) : String :=
  (Header.resolve [header.first "title", contents.head?.map (·.label), some name]).getD name

/-- The record of an article. The image is described by the title where the header does not. -/
def recordOf (header : Header) (contents : List Document.Entry) (name abstract : String)
    (image : Option String) : Record :=
  let title := titleOf header contents name
  { url := name
    title := title
    subtitle := Header.resolve [header.first "subtitle"]
    img := image
    imgAlt := (Header.resolve [header.first "img_alt", some title]).getD title
    abstract := abstract
    tags := header.list "tags"
    «show» := header.flag "show" true }

/-- The file or directory that a header value names, seen from a directory. -/
def includePath (dir : Path) (value : String) : Path :=
  (Path.ofReference? value dir).getD (dir.child value)

def compile [Transliteration] [Image.Scaler] (renderer : Latex.Renderer) (config : Config)
    (manuscript : Manuscript) : Latex.Work CompileError Article := do
  let name := manuscript.name
  let dir := manuscript.dir
  let (header, body) := Header.split manuscript.text
  let (markdown, usage) ← ExceptT.adapt .latex
    (Latex.expandDocument renderer dir config.latex.imageDir body)
  let document := Document.parse markdown
  let (manifest, linked) := extractResources document name dir
  let (contents, anchored) := extractContents linked
  let (image, manifest) ←
    cover? config.thumbnails dir manifest (Header.resolve [header.first "img"])
  return {
    name := name
    html := Html.render anchored
    contents := contents
    record := recordOf header contents name (abstract document) image
    resources := manifest.entries
    includes := (header.values "include").map (includePath dir)
    usage := usage }

end Publication
