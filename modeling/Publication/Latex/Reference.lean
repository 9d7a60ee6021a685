import Publication.Text.Punctuation

/-!
The markdown that stands in for a compiled block: an image, linked to its document where there is
one.
-/

namespace Publication.Latex

open Publication.Text

/-- Puts a backslash before each punctuation character, so that the text reads literally. -/
def escapeChars : List Char → List Char
  | [] => []
  | c :: rest =>
      if isAsciiPunctuation c then '\\' :: c :: escapeChars rest else c :: escapeChars rest

/-- `escapeChars` on strings. -/
def escapeMarkdown (text : String) : String := String.ofList (escapeChars text.toList)

/-- An image with its alternative text, linked to the document at `pdf` if one is given, on a line
of its own. -/
def imageReference (alt png : String) (pdf : Option String) : String :=
  let image := "![" ++ escapeMarkdown alt ++ "](<file://" ++ png ++ ">)"
  match pdf with
  | some pdf => "[" ++ image ++ "](<file://" ++ pdf ++ ">)\n"
  | none => image ++ "\n"

end Publication.Latex
