import Publication.Document.Node
import Publication.Naming.Registry
import Publication.Naming.Slug

/-!
The table of contents. Each heading gets an anchor of its own, which is written into the tree.
-/

namespace Publication.Document

open Publication.Naming

/-- A heading in the table of contents. -/
structure Entry where
  level : Nat
  label : String
  id : String
deriving Repr, DecidableEq, Inhabited

/-- The anchor of a heading without letters or digits. -/
def fallbackAnchor : String := "section"

/-- The name from which the anchor of a label is derived. -/
def anchorBase [Transliteration] (label : String) : String :=
  let slug := slugify '-' label
  if slug.isEmpty then fallbackAnchor else slug

/-- What is known while the contents are collected: the anchors given out and the entries so far. -/
structure Contents where
  anchors : Registry := .empty
  entries : List Entry := []

/-- Gives a heading its anchor and notes it. -/
def Contents.visit [Transliteration] (contents : Contents) (node : Node) : Node × Contents :=
  match node.kind with
  | .heading level =>
      let label := Text.trimmed node.flatten
      let (id, anchors) := contents.anchors.claim (anchorBase label)
      (node.setAttr "id" id, ⟨anchors, contents.entries ++ [⟨level, label, id⟩]⟩)
  | _ => (node, contents)

/-- The entries of all headings in order, and the tree with their anchors. -/
def extractContents [Transliteration] (document : Node) : List Entry × Node :=
  let (document, contents) := document.revise Contents.visit {}
  (contents.entries, document)

end Publication.Document
