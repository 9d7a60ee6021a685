import Publication.Document.Node

/-!
The abstract of a document: the text of its first paragraph that has any.
-/

namespace Publication.Document

/-- The text that a node offers as an abstract. A paragraph of raw markup offers none. -/
def abstractOf? (node : Node) : Option String :=
  if node.kind ≠ .paragraph || node.isRawPlaceholder then none
  else
    let text := Text.trimmed node.flatten
    if text.isEmpty then none else some text

/-- The abstract, found by a walk that stops at it; empty if no paragraph has text. -/
def abstract (document : Node) : String :=
  ((document.walk (fun found node =>
      match abstractOf? node with
      | some text => (some text, false)
      | none => (found, true)) none).1).getD ""

end Publication.Document
