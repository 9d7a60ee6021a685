/-!
A file of settings to begin with: every setting with its default value, and what it means.
-/

namespace Publication.Config

/-- The lines of the file. -/
def stockLines : List String := [
  "# pubgen Configuration",
  "# ====================",
  "# All settings are optional. Remove or comment out any you don't need.",
  "# Values shown below are the defaults.",
  "#",
  "# Place this file next to your documents as pubgen.toml, or pass it with",
  "# \x60pubgen compile --config <file>\x60.",
  "# Unknown keys will cause an error.",
  "",
  "# ---------------------------------------------------------------------------",
  "# LaTeX blocks",
  "# ---------------------------------------------------------------------------",
  "[latex]",
  "# Typesetter executable. It runs twice per changed block.",
  "typesetter = \"pdflatex\"",
  "",
  "# Arguments passed before \x60-output-directory <scratch> file.tex\x60.",
  "# Add \"-shell-escape\" only for documents you trust.",
  "typeset_args = [\"-halt-on-error\", \"-interaction=nonstopmode\"]",
  "",
  "# PDF to PNG converter, invoked as:",
  "#   <rasterizer> -density <density> file.pdf -resize <resize> out.png",
  "rasterizer = \"convert\"",
  "density = 440",
  "resize = \"25%\"",
  "",
  "# Seconds each external invocation may run before it is killed.",
  "timeout_secs = 120",
  "",
  "# Where rendered images are written, relative to the document.",
  "image_dir = \".\"",
  "",
  "# ---------------------------------------------------------------------------",
  "# Article thumbnails",
  "# ---------------------------------------------------------------------------",
  "[thumbnails]",
  "# Create <image>.thumb.png for the \x60img\x60 header image and publish it under",
  "# the image's own name instead of the full image.",
  "enabled = true",
  "",
  "# The thumbnail fits inside a size x size box, aspect ratio kept.",
  "size = 64"]

/-- The text of the file. -/
def stockText : String := String.join (stockLines.map (· ++ "\n"))

end Publication.Config
