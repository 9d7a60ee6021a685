import Publication.Document.Node
import Publication.Markdown.Event

/-!
The document tree that a sequence of events builds. Any sequence builds one: an end without a start
is ignored, and containers left open are closed at the end.
-/

namespace Publication.Document

open Publication.Markdown

/-- The tree under construction. The document is always open; the containers open inside it are
listed innermost first. -/
structure Builder where
  document : Node := { kind := .document }
  inner : List Node := []
  /-- Alignments of the table read last. -/
  alignments : List ColumnAlignment := []
  /-- The column of the next cell. -/
  column : Nat := 0

namespace Builder

/-- Adds a node to the innermost open container. -/
def add (b : Builder) (node : Node) : Builder :=
  match b.inner with
  | [] => { b with document := b.document.addChild node }
  | parent :: outer => { b with inner := parent.addChild node :: outer }

/-- Opens a container. -/
def push (b : Builder) (node : Node) : Builder := { b with inner := node :: b.inner }

/-- The language of a fenced block: the first word of its info string. -/
def language (info : String) : String :=
  String.ofList ((Text.words info.toList).head?.getD [])

/-- The style of a cell in a column. -/
def style? : Option ColumnAlignment → Option String
  | some .left => some "text-align: left"
  | some .center => some "text-align: center"
  | some .right => some "text-align: right"
  | _ => none

/-- Opens the container that a tag stands for. -/
def start (b : Builder) : Tag → Builder
  | .paragraph => b.push { kind := .paragraph }
  | .heading level _ _ _ => b.push { kind := .heading level }
  | .blockQuote _ => b.push { kind := .blockQuote }
  | .codeBlock .indented => b.push { kind := .codeBlock }
  | .codeBlock (.fenced info) =>
      if info.isEmpty then b.push { kind := .codeBlock }
      else b.push { kind := .codeBlock, attrs := [("class", "language-" ++ language info)] }
  | .htmlBlock => b.push { kind := .htmlBlock }
  | .list first => b.push { kind := .list first }
  | .item => b.push { kind := .listItem }
  | .footnoteDefinition label => b.push { kind := .footnoteDefinition, attrs := [("id", label)] }
  | .definitionList => b.push { kind := .definitionList }
  | .definitionTitle => b.push { kind := .definitionTitle }
  | .definitionDetails => b.push { kind := .definitionDetails }
  | .table alignments => { b with alignments := alignments }.push { kind := .table }
  | .tableHead => { b with column := 0 }.push { kind := .tableHead }
  | .tableRow => { b with column := 0 }.push { kind := .tableRow }
  | .tableCell =>
      let attrs := match style? b.alignments[b.column]? with
        | some style => [("style", style)]
        | none => []
      { b with column := b.column + 1 }.push { kind := .tableCell, attrs := attrs }
  | .emphasis => b.push { kind := .emphasis }
  | .strong => b.push { kind := .strong }
  | .strikethrough => b.push { kind := .strikethrough }
  | .link kind dest title _ =>
      b.push { kind := .link (kind = .email), attrs := [("href", dest), ("title", title)] }
  | .image _ dest title _ =>
      b.push { kind := .image, attrs := [("src", dest), ("alt", ""), ("title", title)] }

/-- A container that is complete. What an image encloses becomes its alternative text. -/
def folded (node : Node) : Node :=
  if node.kind = .image then { node.setAttr "alt" node.flatten with children := [] } else node

/-- Closes the innermost open container, if there is one. -/
def stop (b : Builder) : Builder :=
  match b.inner with
  | [] => b
  | node :: outer => { b with inner := outer }.add (folded node)

/-- Takes one event. -/
def step (b : Builder) : Event → Builder
  | .start tag => b.start tag
  | .stop _ => b.stop
  | .text content => b.add (.leaf .text content)
  | .code content => b.add (.leaf .code content)
  | .math display content => b.add (.leaf (.formula display) content)
  | .html content => b.add (.leaf .rawHtml content)
  | .inlineHtml content => b.add (.leaf .rawHtml content)
  | .footnoteReference label => b.add (.leaf .footnoteReference label)
  | .softBreak => b.add { kind := .softBreak }
  | .hardBreak => b.add { kind := .hardBreak }
  | .rule => b.add { kind := .rule }
  | .taskMarker checked => b.add { kind := .taskMarker checked }

/-- The document after closing the innermost container and then those around it, each of which
gains the one closed before as its last child. -/
def close (node : Node) : List Node → Node → Node
  | [], document => document.addChild (folded node)
  | parent :: outer, document => close (parent.addChild (folded node)) outer document

/-- The finished tree. -/
def finish (b : Builder) : Node :=
  match b.inner with
  | [] => b.document
  | node :: outer => close node outer b.document

end Builder

/-- The tree that events build. -/
def ofEvents (events : List Event) : Node := (events.foldl Builder.step {}).finish

end Publication.Document
