import Publication.Document.OfEvents
import Publication.Markdown.Parser

/-!
Markdown text as a document tree.
-/

namespace Publication.Document

/-- The tree of a markdown text. Any text is markdown. -/
def parse (markdown : String) : Node := ofEvents (Markdown.events markdown)

end Publication.Document
