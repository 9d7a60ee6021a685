import Publication.Article.Basic
import Publication.Output
import Publication.Text.Message

/-!
What is told about a published article, line by line.
-/

namespace Publication

open Publication.Text

/-- The lines on an article published at an output, given the number of files copied and the
warnings. -/
def Article.report (article : Article) (output : Output) (copied : Nat) (warnings : List String) :
    List String :=
  [article.record.title ++ " → " ++ output.html.text,
   "    Contents: " ++ counted article.contents.length "heading" "headings",
   "    Resources: " ++ counted copied "file" "files" ++ " → " ++ output.resources.text ++ "/"]
    ++ (if article.usage.total = 0 then [] else ["    LaTeX: " ++ article.usage.display])
    ++ (if article.record.show then [] else ["    Hidden from listings"])
    ++ warnings.map ("    Warning: " ++ ·)

end Publication
