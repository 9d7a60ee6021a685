import Publication.Markdown.Cursor
import Publication.Markdown.Event

/-!
The marks that block structure is written with, each read from the rest of a line.
-/

namespace Publication.Markdown.Marker

/-- A thematic break: three or more of one mark, with nothing but spaces between. -/
def isRule (s : List Char) : Bool :=
  match s with
  | c :: _ =>
      (c == '*' || c == '-' || c == '_') && s.all (fun d => d == c || isSpace d)
        && 3 ≤ s.countP (· == c)
  | [] => false

/-- The level of a heading: one to six number signs before a blank or the end of the line. -/
def headingLevel? (s : List Char) : Option Nat :=
  let level := countWhile (· == '#') s
  if 1 ≤ level && level ≤ 6 && ((s[level]?).map isInlineBlank).getD true then some level else none

/-- The text of a heading behind its level, and the number signs that close it with the spaces
before them. -/
def headingText (s : List Char) : List Char × List Char :=
  let opened := s.dropWhile isInlineBlank
  let line := (opened.reverse.dropWhile (· == ' ')).reverse
  let body := (line.reverse.dropWhile (· == '#')).reverse
  let text := match body.getLast? with
    | none => []
    | some ' ' => (body.reverse.dropWhile (· == ' ')).reverse
    | some _ => line
  (text, line.drop text.length)

/-- The level of the heading that a line under a paragraph makes of it. -/
def underline? (s : List Char) : Option Nat :=
  match s with
  | c :: _ =>
      if (c == '=' || c == '-') && isBlankRest (s.dropWhile (· == c)) then
        some (if c == '=' then 1 else 2)
      else none
  | [] => none

/-- A fence that opens code. -/
structure Fence where
  mark : Char
  width : Nat
  info : List Char
deriving Repr, DecidableEq

/-- Three or more marks, and an info string that holds no mark if they are backticks. -/
def fence? (s : List Char) : Option Fence :=
  match s with
  | c :: _ =>
      let width := countWhile (· == c) s
      let rest := s.drop width
      if (c == '\x60' || c == '~') && 3 ≤ width && !(c == '\x60' && rest.contains c) then
        some ⟨c, width, trimEndBlanks (rest.dropWhile isInlineBlank)⟩
      else none
  | [] => none

/-- Whether a line closes code that a fence opened. -/
def Fence.isClosedBy (fence : Fence) (s : List Char) : Bool :=
  let width := countWhile (· == fence.mark) s
  fence.width ≤ width && (s.drop width).all (· == ' ')

/-- A character that a bullet list item begins with. -/
def isBullet (c : Char) : Bool := c == '-' || c == '+' || c == '*'

/-- What a list item begins with: the character that ends the marker, and the number before it. -/
structure ItemMark where
  mark : Char
  number : Nat
deriving Repr, DecidableEq

/-- The value of decimal digits. -/
def decimal (digits : List Char) : Nat :=
  digits.foldl (fun n c => 10 * n + (c.toNat - 0x30)) 0

/-- The mark of a list item and its length. A number has at most nine digits. -/
def itemMark? (s : List Char) : Option (ItemMark × Nat) :=
  match s with
  | c :: _ =>
      if isBullet c then some (⟨c, 0⟩, 1)
      else
        let digits := s.takeWhile Char.isDigit
        match s[digits.length]? with
        | some d =>
            if 1 ≤ digits.length && digits.length ≤ 9 && (d == '.' || d == ')') then
              some (⟨d, decimal digits⟩, digits.length + 1)
            else none
        | none => none
  | [] => none

/-- Whether what follows a list mark lets it be one. -/
def opensItem (after : List Char) : Bool := (after.head?.map isSpace).getD true

/-- The place behind a mark and the columns of space after it, and the columns that the content is
indented by. Four or more columns belong to the content. -/
def behindMark (at_ : Cursor) (indent : Nat) : Cursor × Nat :=
  if isBlankRest at_.rest then (at_, indent)
  else
    let (columns, next) := at_.spaces 4
    if columns < 4 then (next, indent + columns) else (at_, indent)

/-- A list item at a place with its own indentation: its mark, where its content begins, and by how
much that is indented. -/
def item? (at_ : Cursor) (indent : Nat) : Option (ItemMark × Cursor × Nat) :=
  if at_.owed ≠ 0 then none
  else
    (itemMark? at_.rest).bind fun (mark, length) =>
      let after := at_.advance length
      if isBullet mark.mark && isRule at_.rest || !opensItem after.rest then none
      else
        let (next, content) := behindMark (after.spaces 1).2 (indent + length + 1)
        some (mark, next, content)

/-- The details of a definition: where they begin, and by how much they are indented. -/
def details? (at_ : Cursor) (indent : Nat) : Option (Cursor × Nat) :=
  (at_.mark? ':').map fun after => behindMark (after.spaces 1).2 (indent + 2)

/-- Whether an item at the start of `s` would end a paragraph that it does not continue. -/
def itemInterrupts (s : List Char) : Bool :=
  match itemMark? s with
  | some (mark, length) =>
      opensItem (s.drop length) && (isBullet mark.mark || mark.number == 1)
        && !isBlankRest (s.drop length)
  | none => false

/-- Whether an item stands at the start of `s`. -/
def startsItem (s : List Char) : Bool :=
  match itemMark? s with
  | some (_, length) => opensItem (s.drop length)
  | none => false

/-- The box of a task at a place: whether it is ticked, and the place behind it. -/
def task? (at_ : Cursor) : Option (Bool × Cursor) :=
  let (_, at_) := at_.spaces 3
  match at_.rest with
  | '[' :: c :: ']' :: rest =>
      let checked := c == 'x' || c == 'X'
      if (checked || isInlineBlank c) && (rest.head?.map isInlineBlank).getD true then
        some (checked, at_.advance 3)
      else none
  | _ => none

/-- What the delimiter row of a table says so far. -/
structure Columns where
  done : List ColumnAlignment := []
  current : ColumnAlignment := .none
  atStart : Bool := true
  pipe : Bool := false
  dash : Bool := false
  dashInColumn : Bool := false

/-- Reads one character of a delimiter row. -/
def Columns.step (cs : Columns) (c : Char) : Option Columns :=
  if c = ' ' then some cs
  else if c = ':' then
    let current := match cs.atStart, cs.current with
      | true, .none => .left
      | false, .left => .center
      | false, .none => .right
      | _, a => a
    some { cs with current := current, atStart := false }
  else if c = '-' then some { cs with atStart := false, dash := true, dashInColumn := true }
  else if c = '|' then
    if cs.dashInColumn then
      some ⟨cs.done ++ [cs.current], .none, true, true, cs.dash, false⟩
    else none
  else none

/-- The alignments that a delimiter row sets. It holds a dash in every column and a pipe. -/
def delimiterRow? (at_ : Cursor) : Option (List ColumnAlignment) :=
  let (columns, at_) := at_.spaces 4
  if 3 < columns || at_.rest.isEmpty then none
  else
    let (pipe, cells) := match at_.rest with
      | '|' :: rest => (true, rest)
      | rest => (false, rest)
    (cells.foldlM Columns.step { pipe := pipe }).bind fun cs =>
      if !cs.pipe || !cs.dash then none
      else some (if cs.atStart then cs.done else cs.done ++ [cs.current])

/-- The places of the pipes in a line that are not escaped, by what follows each. -/
def pipes : List Char → List (List Char)
  | [] => []
  | c :: rest =>
      if c = '|' then rest :: pipes rest
      else if c = '\\' then
        match rest with
        | _ :: more => pipes more
        | [] => []
      else pipes rest

/-- The number of cells of a table head, or none where it has no pipe. -/
def headCells (s : List Char) : Nat :=
  let found := pipes s
  let opening := if (s.dropWhile isInlineBlank).head? == some '|' then 1 else 0
  match found.getLast? with
  | none => 0
  | some last => found.length - opening + (if isBlankRest last then 0 else 1)

/-- Cuts off the cell that a row begins with, up to a pipe that no backslash stands before. The
backslash before another pipe is left out. -/
def cutCell : List Char → List Char → List Char × List Char
  | read, [] => (read.reverse, [])
  | read, c :: rest =>
      if c = '|' then
        match read with
        | '\\' :: before => cutCell (c :: before) rest
        | _ => (read.reverse, c :: rest)
      else cutCell (c :: read) rest

/-- The cells of a row. -/
def cells : (fuel : Nat) → List Char → List (List Char)
  | 0, _ => []
  | fuel + 1, s =>
      let inner := match s with
        | '|' :: rest => rest.dropWhile isInlineBlank
        | _ => s.dropWhile isInlineBlank
      if inner.isEmpty then []
      else
        let (cell, rest) := cutCell [] inner
        trimEndBlanks cell :: cells fuel rest

/-- The cells of a row, cut or filled up to the number of columns. -/
def row (columns : Nat) (s : List Char) : List (List Char) :=
  let found := (cells (s.length + 1) s).take columns
  found ++ List.replicate (columns - found.length) []

end Publication.Markdown.Marker
