import Publication.Document.Replay
import Publication.Html.Writer

/-!
The body HTML of a document.
-/

namespace Publication.Html

/-- The HTML of what is below the root of a document. -/
def render (document : Document.Node) : String :=
  ofEvents (Document.Node.eventsAll document.children)

end Publication.Html
