import Publication.Html.Escape
import Publication.Markdown.Event

/-!
The HTML that events are written as. Block elements start on a line of their own, and footnotes are
numbered as they first appear.
-/

namespace Publication.Html

open Publication.Markdown

/-- What the writer knows between two events. -/
structure Writer where
  /-- Whether what is written so far ends a line. -/
  atLineStart : Bool := true
  inTableHead : Bool := true
  alignments : List ColumnAlignment := []
  column : Nat := 0
  /-- Footnote labels in the order of their numbers. -/
  footnotes : List String := []
  /-- The titles of the images being read, innermost first; inside one only text is written. -/
  images : List String := []

namespace Writer

/-- Writes a piece of markup. -/
def put (w : Writer) (s : String) : String × Writer :=
  if s.isEmpty then ("", w) else (s, { w with atLineStart := s.toList.getLast? == some '\n' })

/-- Writes a piece of markup on a line of its own. -/
def putBlock (w : Writer) (s : String) : String × Writer :=
  w.put (if w.atLineStart then s else "\n" ++ s)

/-- Writes text, after which the line is ended only if the text ends it. -/
def putText (w : Writer) (text : String) (shown : String) : String × Writer :=
  (shown, { w with atLineStart := text.toList.getLast? == some '\n' })

/-- The number of a footnote, which is the next one if the label is new. -/
def number (w : Writer) (label : String) : Nat × Writer :=
  match w.footnotes.findIdx? (· = label) with
  | some index => (index + 1, w)
  | none => (w.footnotes.length + 1, { w with footnotes := w.footnotes ++ [label] })

/-- An attribute, unless it has no value. -/
def titleAttribute (title : String) : String :=
  if title.isEmpty then "" else " title=\"" ++ attributeValue title ++ "\""

def quoteClass : Option QuoteKind → String
  | none => ""
  | some .note => " class=\"markdown-alert-note\""
  | some .tip => " class=\"markdown-alert-tip\""
  | some .important => " class=\"markdown-alert-important\""
  | some .warning => " class=\"markdown-alert-warning\""
  | some .caution => " class=\"markdown-alert-caution\""

def headingAttributes (id : Option String) (classes : List String)
    (attrs : List (String × Option String))
    : String :=
  (match id with | some id => " id=\"" ++ attributeValue id ++ "\"" | none => "")
    ++ (if classes.isEmpty then ""
        else " class=\"" ++ String.intercalate " " (classes.map attributeValue) ++ "\"")
    ++ String.join (attrs.map fun (key, value) =>
        " " ++ attributeValue key
          ++ (match value with | some value => "=\"" ++ attributeValue value ++ "\"" | none => ""))

/-- The start of a code block. The language is the info string up to its first space. -/
def codeStart : CodeKind → String
  | .indented => "<pre><code>"
  | .fenced info =>
      let language := String.ofList (info.toList.takeWhile (· ≠ ' '))
      if language.isEmpty then "<pre><code>"
      else "<pre><code class=\"language-" ++ attributeValue language ++ "\">"

/-- The alignment of the cell in the current column. -/
def cellStyle (w : Writer) : String :=
  match w.alignments[w.column]? with
  | some .left => " style=\"text-align: left\""
  | some .center => " style=\"text-align: center\""
  | some .right => " style=\"text-align: right\""
  | _ => ""

def start (w : Writer) : Tag → String × Writer
  | .paragraph => w.putBlock "<p>"
  | .heading level id classes attrs =>
      w.putBlock ("<h" ++ toString level ++ headingAttributes id classes attrs ++ ">")
  | .blockQuote kind => w.putBlock ("<blockquote" ++ quoteClass kind ++ ">\n")
  | .codeBlock kind => w.putBlock (codeStart kind)
  | .htmlBlock => ("", w)
  | .list none => w.putBlock "<ul>\n"
  | .list (some 1) => w.putBlock "<ol>\n"
  | .list (some first) => w.putBlock ("<ol start=\"" ++ toString first ++ "\">\n")
  | .item => w.putBlock "<li>"
  | .footnoteDefinition label =>
      let (n, w) := w.number label
      w.putBlock ("<div class=\"footnote-definition\" id=\"" ++ attributeValue label
        ++ "\"><sup class=\"footnote-definition-label\">" ++ toString n ++ "</sup>")
  | .definitionList => w.putBlock "<dl>\n"
  | .definitionTitle => w.putBlock "<dt>"
  | .definitionDetails => w.putBlock "<dd>"
  | .table alignments => { w with alignments := alignments }.put "<table>"
  | .tableHead => { w with inTableHead := true, column := 0 }.put "<thead><tr>"
  | .tableRow => { w with column := 0 }.put "<tr>"
  | .tableCell =>
      w.put ((if w.inTableHead then "<th" else "<td") ++ w.cellStyle ++ ">")
  | .emphasis => w.put "<em>"
  | .strong => w.put "<strong>"
  | .strikethrough => w.put "<del>"
  | .link kind dest title _ =>
      w.put ("<a href=\"" ++ (if kind = .email then "mailto:" else "") ++ reference dest ++ "\""
        ++ titleAttribute title ++ ">")
  | .image _ dest title _ =>
      let (s, w) := w.put ("<img src=\"" ++ reference dest ++ "\" alt=\"")
      (s, { w with images := title :: w.images })

def stop (w : Writer) : TagEnd → String × Writer
  | .paragraph => w.put "</p>\n"
  | .heading level => w.put ("</h" ++ toString level ++ ">\n")
  | .blockQuote _ => w.put "</blockquote>\n"
  | .codeBlock => w.put "</code></pre>\n"
  | .htmlBlock => ("", w)
  | .list ordered => w.put (if ordered then "</ol>\n" else "</ul>\n")
  | .item => w.put "</li>\n"
  | .footnoteDefinition => w.put "</div>\n"
  | .definitionList => w.put "</dl>\n"
  | .definitionTitle => w.put "</dt>\n"
  | .definitionDetails => w.put "</dd>\n"
  | .table => w.put "</tbody></table>\n"
  | .tableHead => { w with inTableHead := false }.put "</tr></thead><tbody>\n"
  | .tableRow => w.put "</tr>\n"
  | .tableCell =>
      let (s, w) := w.put (if w.inTableHead then "</th>" else "</td>")
      (s, { w with column := w.column + 1 })
  | .emphasis => w.put "</em>"
  | .strong => w.put "</strong>"
  | .strikethrough => w.put "</del>"
  | .link => w.put "</a>"
  | .image => ("", w)

/-- Writes an event inside an image, where only text counts. -/
def stepInImage (w : Writer) (title : String) (outer : List String) : Event → String × Writer
  | .start _ => ("", { w with images := title :: w.images })
  | .stop _ =>
      match outer with
      | [] => { w with images := [] }.put ("\"" ++ titleAttribute title ++ " />")
      | _ => ("", { w with images := outer })
  | .text content | .code content | .inlineHtml content =>
      w.putText content (attributeValue content)
  | .math display content =>
      let mark := if display then "$$" else "$"
      (mark ++ attributeValue content ++ mark, w)
  | .html _ => ("", w)
  | .softBreak | .hardBreak | .rule => (" ", w)
  | .footnoteReference label =>
      let (n, w) := w.number label
      ("[" ++ toString n ++ "]", w)
  | .taskMarker checked => (if checked then "[x]" else "[ ]", w)

def step (w : Writer) (event : Event) : String × Writer :=
  match w.images with
  | title :: outer => w.stepInImage title outer event
  | [] =>
      match event with
      | .start tag => w.start tag
      | .stop tag => w.stop tag
      | .text text => w.putText text (content text)
      | .code text => w.put ("<code>" ++ content text ++ "</code>")
      | .math display text =>
          w.put ("<span class=\"math math-" ++ (if display then "display" else "inline") ++ "\">"
            ++ attributeValue text ++ "</span>")
      | .html text | .inlineHtml text => w.put text
      | .footnoteReference label =>
          let (n, w) := w.number label
          w.put ("<sup class=\"footnote-reference\"><a href=\"#" ++ attributeValue label ++ "\">"
            ++ toString n ++ "</a></sup>")
      | .softBreak => w.put "\n"
      | .hardBreak => w.put "<br />\n"
      | .rule => w.putBlock "<hr />\n"
      | .taskMarker checked =>
          w.put ("<input disabled=\"\" type=\"checkbox\""
            ++ (if checked then " checked=\"\"" else "") ++ "/>\n")

/-- Writes events in order, piece by piece. -/
def pieces : Writer → List Event → List String
  | _, [] => []
  | w, event :: rest =>
      let (s, w) := w.step event
      s :: pieces w rest

end Writer

/-- The HTML of events. -/
def ofEvents (events : List Event) : String := String.join (Writer.pieces {} events)

end Publication.Html
