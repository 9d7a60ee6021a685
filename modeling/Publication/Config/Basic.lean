import Publication.Path
import Publication.Text.Blank

/-!
The settings of the compiler, their default values, and the values that they must not have.
-/

namespace Publication

open Publication.Text

/-- How LaTeX is typeset and where its images go. -/
structure LatexSettings where
  typesetter : String := "pdflatex"
  typesetArgs : List String := ["-halt-on-error", "-interaction=nonstopmode"]
  rasterizer : String := "convert"
  density : Nat := 440
  resize : String := "25%"
  /-- Seconds that a run of a tool may take. -/
  timeout : Nat := 120
  /-- The directory of the images, seen from the document. -/
  imageDir : String := "."
deriving Repr, DecidableEq, Inhabited

/-- How the image of an article is scaled down. -/
structure ThumbnailSettings where
  enabled : Bool := true
  /-- The edge of the square that a thumbnail fits into. -/
  size : Nat := 64
deriving Repr, DecidableEq, Inhabited

/-- All settings. -/
structure Config where
  latex : LatexSettings := {}
  thumbnails : ThumbnailSettings := {}
deriving Repr, DecidableEq, Inhabited

namespace Config

/-- Ways in which settings of the right types make no sense. -/
inductive Invalid where
  | blankTypesetter
  | blankRasterizer
  | zeroDensity
  | zeroTimeout
  | absoluteImageDir
  | zeroThumbnail
deriving Repr, DecidableEq

/-- A senseless setting in words. -/
def Invalid.message : Invalid → String
  | .blankTypesetter => "latex.typesetter must not be empty"
  | .blankRasterizer => "latex.rasterizer must not be empty"
  | .zeroDensity => "latex.density must be non-zero"
  | .zeroTimeout => "latex.timeout_secs must be non-zero"
  | .absoluteImageDir => "latex.image_dir must be relative to the document"
  | .zeroThumbnail => "thumbnails.size must be non-zero"

/-- The first senseless setting, if there is one. -/
def invalid? (config : Config) : Option Invalid :=
  if allBlank config.latex.typesetter.toList then some .blankTypesetter
  else if allBlank config.latex.rasterizer.toList then some .blankRasterizer
  else if config.latex.density = 0 then some .zeroDensity
  else if config.latex.timeout = 0 then some .zeroTimeout
  else if Path.isAbsolute ⟨config.latex.imageDir⟩ then some .absoluteImageDir
  else if config.thumbnails.size = 0 then some .zeroThumbnail
  else none

end Config
end Publication
