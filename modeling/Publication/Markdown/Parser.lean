import Publication.Markdown.Block.Reader
import Publication.Markdown.Inline.Reader

/-!
Markdown text as events: the block structure first, then the inline text of each leaf.
-/

namespace Publication.Markdown

/-- The events of a line of code or raw HTML, which end in a line feed whatever ends the line. -/
def Line.events (make : String → Event) (line : Line) : List Event :=
  let piece (s : List Char) : List Event := if s.isEmpty then [] else [make (String.ofList s)]
  match line.ending with
  | [] => piece line.text
  | ['\r', '\n'] => piece line.text ++ [make "\n"]
  | _ => piece (line.text ++ ['\n'])

namespace Block

def cellEvents (refs : References) (source : List Char) : List Event :=
  Tag.tableCell.around (Inline.eventsAll (Inline.ofText refs source))

mutual

def events (refs : References) : Block → List Event
  | .paragraph tight box source =>
      let marker := match box with
        | some checked => [Event.taskMarker checked]
        | none => []
      let inner := marker ++ Inline.eventsAll (Inline.ofText refs source)
      if tight then inner else Tag.paragraph.around inner
  | .heading level source closing =>
      (Tag.heading level none [] []).around
        (Inline.eventsAll (Inline.ofHeading refs source closing))
  | .rule => [.rule]
  | .code kind lines => (Tag.codeBlock kind).around (lines.flatMap (Line.events .text))
  | .html lines => Tag.htmlBlock.around (lines.flatMap (Line.events .html))
  | .table alignments head rows =>
      (Tag.table alignments).around
        (Tag.tableHead.around (head.flatMap (cellEvents refs))
          ++ rows.flatMap fun row => Tag.tableRow.around (row.flatMap (cellEvents refs)))
  | .title source =>
      Tag.definitionTitle.around (Inline.eventsAll (Inline.ofText refs source))
  | .task checked => [.taskMarker checked]
  | .container tag body => tag.around (eventsAll refs body)

def eventsAll (refs : References) : List Block → List Event
  | [] => []
  | block :: rest => events refs block ++ eventsAll refs rest

end

end Block

def events (text : String) : List Event :=
  let outline := Outline.ofText text.toList
  Block.eventsAll outline.references outline.blocks

end Publication.Markdown
