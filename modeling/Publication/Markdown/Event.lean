/-!
Parsed markdown as a sequence of events: containers are opened and closed around leaves.
-/

namespace Publication.Markdown

/-- How a table column is aligned. -/
inductive ColumnAlignment where
  | none
  | left
  | center
  | right
deriving Repr, DecidableEq

/-- How a link or an image was written. -/
inductive LinkKind where
  | inline
  | reference
  | collapsed
  | shortcut
  | autolink
  | email
deriving Repr, DecidableEq

/-- The label that a block quote may carry. -/
inductive QuoteKind where
  | note
  | tip
  | important
  | warning
  | caution
deriving Repr, DecidableEq

/-- How a code block was written: by indentation, or fenced with an info string. -/
inductive CodeKind where
  | indented
  | fenced (info : String)
deriving Repr, DecidableEq

/-- A container that an event opens. -/
inductive Tag where
  | paragraph
  | heading (level : Nat) (id : Option String) (classes : List String)
      (attrs : List (String × Option String))
  | blockQuote (kind : Option QuoteKind)
  | codeBlock (kind : CodeKind)
  | htmlBlock
  | list (start : Option Nat)
  | item
  | footnoteDefinition (label : String)
  | definitionList
  | definitionTitle
  | definitionDetails
  | table (alignments : List ColumnAlignment)
  | tableHead
  | tableRow
  | tableCell
  | emphasis
  | strong
  | strikethrough
  | link (kind : LinkKind) (dest title id : String)
  | image (kind : LinkKind) (dest title id : String)
deriving Repr, DecidableEq

/-- What the event that closes a container tells about it. -/
inductive TagEnd where
  | paragraph
  | heading (level : Nat)
  | blockQuote (kind : Option QuoteKind)
  | codeBlock
  | htmlBlock
  | list (ordered : Bool)
  | item
  | footnoteDefinition
  | definitionList
  | definitionTitle
  | definitionDetails
  | table
  | tableHead
  | tableRow
  | tableCell
  | emphasis
  | strong
  | strikethrough
  | link
  | image
deriving Repr, DecidableEq

def Tag.toEnd : Tag → TagEnd
  | .paragraph => .paragraph
  | .heading level _ _ _ => .heading level
  | .blockQuote kind => .blockQuote kind
  | .codeBlock _ => .codeBlock
  | .htmlBlock => .htmlBlock
  | .list start => .list start.isSome
  | .item => .item
  | .footnoteDefinition _ => .footnoteDefinition
  | .definitionList => .definitionList
  | .definitionTitle => .definitionTitle
  | .definitionDetails => .definitionDetails
  | .table _ => .table
  | .tableHead => .tableHead
  | .tableRow => .tableRow
  | .tableCell => .tableCell
  | .emphasis => .emphasis
  | .strong => .strong
  | .strikethrough => .strikethrough
  | .link _ _ _ _ => .link
  | .image _ _ _ _ => .image

/-- One step of a parsed document. -/
inductive Event where
  | start (tag : Tag)
  | stop (tag : TagEnd)
  | text (content : String)
  | code (content : String)
  | math (display : Bool) (content : String)
  /-- A line of an HTML block. -/
  | html (content : String)
  | inlineHtml (content : String)
  | footnoteReference (label : String)
  | softBreak
  | hardBreak
  | rule
  | taskMarker (checked : Bool)
deriving Repr, DecidableEq

/-- Events with a container opened before and closed behind them. -/
def Tag.around (tag : Tag) (events : List Event) : List Event :=
  .start tag :: events ++ [.stop tag.toEnd]

end Publication.Markdown
