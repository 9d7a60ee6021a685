import Publication.Text.Blank
import Publication.Text.Transliteration

/-!
Slugs: text turned into a word that is safe in a URL and as a file name.
-/

namespace Publication.Naming

open Publication.Text

/-- What a slug keeps of ASCII text; the blanks among it become separators. -/
def isSluggable (c : Char) : Bool := c.isAlphanum || c == '_' || c == '-' || isBlank c

/-- Each run of blanks and separators becomes one separator. `inRun` after a separator was
written. -/
def collapse (separator : Char) : (inRun : Bool) → List Char → List Char
  | _, [] => []
  | inRun, c :: rest =>
      if c = separator || isBlank c then
        if inRun then collapse separator true rest else separator :: collapse separator true rest
      else c :: collapse separator false rest

/-- The slug of a text: transliterated, reduced to letters, digits, `_`, `-` and blanks, trimmed,
in lower case, with one separator for each run of blanks and separators. -/
def slugify [Transliteration] (separator : Char) (text : String) : String :=
  let kept := (Transliteration.toAscii text.toList).filter isSluggable
  String.ofList (collapse separator false ((trim kept).map Char.toLower))

end Publication.Naming
