import Publication.Document.Node
import Publication.Markdown.Event

/-!
The events that a document tree stands for. They are what the tree was built from, with what later
passes wrote into the attributes.
-/

namespace Publication.Document

open Publication.Markdown

namespace Node

def textOr (node : Node) : String := node.text.getD ""

/-- The value of an attribute, or nothing. -/
def attrOr (node : Node) (key : String) : String := (node.attr? key).getD ""

/-- The alignment that the style of a cell sets. -/
def alignment (cell : Node) : ColumnAlignment :=
  match cell.attr? "style" with
  | some "text-align: left" => .left
  | some "text-align: center" => .center
  | some "text-align: right" => .right
  | _ => .none

/-- The alignments of the columns of a table, which its first head tells. -/
def columnAlignments (children : List Node) : List ColumnAlignment :=
  match children.find? (·.kind = .tableHead) with
  | some head => head.children.map alignment
  | none => []

/-- How a code block of a class was written. -/
def codeKind (class? : Option String) : CodeKind :=
  match class?.bind fun name => Text.strip? "language-".toList name.toList with
  | some language => .fenced (String.ofList language)
  | none => .indented

/-- The level that a heading is written at: outside one to six it is six. -/
def writtenLevel (level : Nat) : Nat := if 1 ≤ level ∧ level ≤ 6 then level else 6

mutual

def events : Node → List Event
  | ⟨kind, text, attrs, children⟩ =>
      let node : Node := ⟨kind, text, attrs, []⟩
      match kind with
      | .document | .span => eventsAll children
      | .text => [.text node.textOr]
      | .code => [.code node.textOr]
      | .rawHtml => [.inlineHtml node.textOr]
      | .formula display => [.math display node.textOr]
      | .footnoteReference => [.footnoteReference node.textOr]
      | .taskMarker checked => [.taskMarker checked]
      | .softBreak => [.softBreak]
      | .hardBreak => [.hardBreak]
      | .rule => [.rule]
      | .htmlBlock => Tag.htmlBlock.around (children.map fun child => .html child.textOr)
      | .image =>
          let alt := node.attrOr "alt"
          (Tag.image .inline (node.attrOr "src") (node.attrOr "title") "").around
            (if alt.isEmpty then [] else [.text alt])
      | .paragraph => Tag.paragraph.around (eventsAll children)
      | .heading level =>
          (Tag.heading (writtenLevel level) (node.attr? "id") [] []).around (eventsAll children)
      | .blockQuote => (Tag.blockQuote none).around (eventsAll children)
      | .codeBlock => (Tag.codeBlock (codeKind (node.attr? "class"))).around (eventsAll children)
      | .list start => (Tag.list start).around (eventsAll children)
      | .listItem => Tag.item.around (eventsAll children)
      | .table => (Tag.table (columnAlignments children)).around (eventsAll children)
      | .tableHead => Tag.tableHead.around (eventsAll children)
      | .tableRow => Tag.tableRow.around (eventsAll children)
      | .tableCell => Tag.tableCell.around (eventsAll children)
      | .footnoteDefinition =>
          (Tag.footnoteDefinition (node.attrOr "id")).around (eventsAll children)
      | .definitionList => Tag.definitionList.around (eventsAll children)
      | .definitionTitle => Tag.definitionTitle.around (eventsAll children)
      | .definitionDetails => Tag.definitionDetails.around (eventsAll children)
      | .emphasis => Tag.emphasis.around (eventsAll children)
      | .strong => Tag.strong.around (eventsAll children)
      | .strikethrough => Tag.strikethrough.around (eventsAll children)
      | .link email =>
          (Tag.link (if email then .email else .inline) (node.attrOr "href")
            (node.attrOr "title") "").around (eventsAll children)

def eventsAll : List Node → List Event
  | [] => []
  | node :: rest => events node ++ eventsAll rest

end

end Node
end Publication.Document
