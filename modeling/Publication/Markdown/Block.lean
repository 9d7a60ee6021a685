import Publication.Markdown.Event
import Publication.Markdown.Link

/-!
Block structure: the leaves of a document with their text still unread, and the containers around
them.
-/

namespace Publication.Markdown

/-- A block. The text of a leaf is kept as it is written, without the marks of the containers. -/
inductive Block where
  /-- In a tight list a paragraph is not marked as one. A task's box comes before its text. -/
  | paragraph (tight : Bool) (box : Option Bool) (source : List Char)
  /-- The signs that close a heading are no part of its text. -/
  | heading (level : Nat) (source closing : List Char)
  | rule
  | code (kind : CodeKind) (lines : List Line)
  | html (lines : List Line)
  | table (alignments : List ColumnAlignment) (head : List (List Char))
      (rows : List (List (List Char)))
  /-- The term of a definition list. -/
  | title (source : List Char)
  /-- The box of a task without text. -/
  | task (checked : Bool)
  | container (tag : Tag) (body : List Block)
deriving Repr

namespace Block

/-- A paragraph as it stands in an item of a tight list. -/
def tighten : Block → Block
  | .paragraph _ box source => .paragraph true box source
  | block => block

def tightenItem : Block → Block
  | .container tag body => .container tag (body.map tighten)
  | block => block

/-- An entry of a definition list. -/
def isEntry : Block → Bool
  | .title _ => true
  | .container .definitionDetails _ => true
  | _ => false

end Block

/-- What the block structure of a document tells: its blocks, the link definitions in the order in
which they are written, and the labels of its footnotes. -/
structure Outline where
  blocks : List Block
  definitions : List Link.Definition
  footnotes : List (List Char)

end Publication.Markdown
