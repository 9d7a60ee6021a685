import Publication.Markdown.Block
import Publication.Markdown.HtmlTag
import Publication.Markdown.Marker

/-!
Open containers, and how a line continues them or breaks off the paragraph inside them.
-/

namespace Publication.Markdown

/-- A container that is open. -/
inductive Container where
  | quote
  | list (tight : Bool) (mark : Char) (start : Nat)
  | item (indent : Nat)
  | footnote (label : List Char)
  | definitions (tight : Bool)
  | details (indent : Nat)
deriving Repr, DecidableEq

namespace Container

/-- Enters content that is indented by some columns. At the end of the line any number will do. -/
def enterIndented (indent : Nat) (at_ : Cursor) : Option Cursor :=
  let (columns, next) := at_.spaces indent
  if columns = indent || next.atEnd then some next else none

/-- The place behind the mark of a block quote. -/
def quoteMark? (at_ : Cursor) : Option Cursor := (at_.mark? '>').map fun next => (next.spaces 1).2

/-- The place where the content of a container goes on in a line, if the line continues it. -/
def enter (container : Container) (at_ : Cursor) : Option Cursor :=
  match container with
  | .quote =>
      let (columns, next) := at_.spaces 4
      if columns < 4 then quoteMark? next else none
  | .item indent | .details indent => enterIndented indent at_
  | .footnote _ => enterIndented 4 at_
  | .list _ _ _ | .definitions _ => some at_

/-- Enters containers, outermost first, as far as the line continues them: how many, and where
their content goes on. -/
def descend : List Container → Cursor → Nat × Cursor
  | [], at_ => (0, at_)
  | container :: inner, at_ =>
      match container.enter at_ with
      | some next => let (n, last) := descend inner next; (n + 1, last)
      | none => (0, at_)

/-- The block that a closed container becomes, and what had to be moved out behind it. -/
def toBlocks (body : List Block) : Container → List Block
  | .quote => [.container (.blockQuote none) body]
  | .list tight mark start =>
      let first := if Marker.isBullet mark then none else some start
      [.container (.list first) (if tight then body.map Block.tightenItem else body)]
  | .item _ => [.container .item body]
  | .footnote label => [.container (.footnoteDefinition (String.ofList label)) body]
  | .definitions tight =>
      let entries := body.takeWhile Block.isEntry
      let entries := if tight then entries.map Block.tightenItem else entries
      .container .definitionList entries :: body.dropWhile Block.isEntry
  | .details _ => [.container .definitionDetails body]

end Container

/-- The text of a line inside its containers. -/
structure Inside where
  /-- Whether the line continues all containers. -/
  whole : Bool
  cursor : Cursor

def inside (containers : List Container) (line : Line) : Inside :=
  let (n, at_) := Container.descend containers (Cursor.start line)
  ⟨n == containers.length, at_⟩

/-- What surrounds a line that may break off what is above it. -/
structure Surroundings where
  /-- Whether the line continues all containers. -/
  whole : Bool
  inParagraph : Bool
  inTable : Bool

/-- The label of a footnote at the start of `s`, if a colon follows it. -/
def footnoteMark? (s : List Char) : Option (List Char × List Char) :=
  match s with
  | '[' :: '^' :: rest =>
      (Link.label? false rest).bind fun
        | (label, ':' :: rest) => some (label, rest)
        | _ => none
  | _ => none

/-- Whether the text at the start of a line, behind its spaces, breaks off what is above it without
a look at the next line. -/
def breaksOff (around : Surroundings) (s : List Char) : Bool :=
  isBlankRest s || Marker.isRule s || (Marker.headingLevel? s).isSome || (Marker.fence? s).isSome
    || s.head? == some '>'
    || Marker.itemInterrupts s
    || ((!around.whole || around.inTable) && Marker.startsItem s)
    || (match s with
        | '<' :: rest => (HtmlTag.endMark? rest).isSome || HtmlTag.startsBlock rest
        | _ => false)
    || (s.head? == some ':' && (!around.whole || around.inParagraph))
    || (footnoteMark? s).isSome

/-- The alignments of a table whose head is `head`, if the next line is its delimiter row. -/
def tableAt? (containers : List Container) (head : List Char) (next : Option Line)
    : Option (List ColumnAlignment) :=
  next.bind fun line =>
    let within := inside containers line
    if !within.whole || (Marker.pipes head).isEmpty then none
    else
      (Marker.delimiterRow? within.cursor).bind fun alignments =>
        if alignments.length = Marker.headCells head then some alignments else none

/-- What a line does to the paragraph above it. -/
inductive Continuation where
  /-- It underlines the paragraph, which is a heading. -/
  | underline (level : Nat)
  /-- It is no part of the paragraph. -/
  | ends
  /-- It continues the paragraph with a text, the spaces before which do not count. -/
  | text (source : List Char)

/-- What a line does to the paragraph above it, given the line after it. -/
def continuation (containers : List Container) (inParagraph : Bool) (line : Line)
    (next : Option Line)
    : Continuation :=
  let within := inside containers line
  let (columns, at_) := within.cursor.spaces 4
  if columns < 4 then
    match if within.whole then Marker.underline? at_.rest else none with
    | some level => .underline level
    | none =>
        let table := at_.rest.head? == some '|' && (tableAt? containers at_.rest next).isSome
        if breaksOff ⟨within.whole, inParagraph, false⟩ at_.rest || table then .ends
        else .text within.cursor.rest
  else if isBlankRest at_.rest then .ends
  else .text within.cursor.rest

end Publication.Markdown
