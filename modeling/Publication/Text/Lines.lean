import Publication.Text.Blank

/-!
Lines of a text. A line keeps the line feed that ends it, so the lines concatenate to the text.
-/

namespace Publication.Text

/-- Lines of `s` with their line feeds, given the characters of the first one already read. -/
def linesFrom : List Char → List Char → List (List Char)
  | line, [] => if line.isEmpty then [] else [line.reverse]
  | line, c :: rest =>
      if c = '\n' then (c :: line).reverse :: linesFrom [] rest else linesFrom (c :: line) rest

/-- The lines of `s`, each with its line feed; only the last one may lack it. -/
def lines (s : List Char) : List (List Char) := linesFrom [] s

def withoutFeed (line : List Char) : List Char := (stripEnd? ['\n'] line).getD line

/-- A line without its line feed, nor a carriage return before that. -/
def withoutBreak (line : List Char) : List Char :=
  let bare := withoutFeed line
  (stripEnd? ['\r'] bare).getD bare

end Publication.Text
