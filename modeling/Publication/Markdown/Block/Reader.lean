import Publication.Markdown.Block.Container

/-!
Reading block structure line by line. The containers that a line does not continue are closed, the
ones that it begins are opened, and its text begins a leaf, which takes the lines that belong to it.
-/

namespace Publication.Markdown

/-- An open container with the blocks that it holds so far, latest first. -/
structure Frame where
  container : Container
  body : List Block

/-- The block structure under construction. -/
structure Reader where
  /-- Blocks outside all open containers, latest first. -/
  document : List Block := []
  /-- The open containers, innermost first. -/
  frames : List Frame := []
  /-- Link definitions, latest first. -/
  definitions : List Link.Definition := []
  /-- Labels of footnotes, latest first. -/
  footnotes : List (List Char) := []
  /-- Whether the innermost item began with a blank line and has no content yet. -/
  emptyItem : Bool := false
  /-- Whether the line before is blank. -/
  afterBlank : Bool := false
  /-- The box of a task that awaits its paragraph. -/
  task : Option Bool := none

namespace Reader

/-- The open containers, outermost first. -/
def containers (r : Reader) : List Container := (r.frames.map (·.container)).reverse

/-- Adds a block to the innermost container. -/
def add (r : Reader) (block : Block) : Reader :=
  match r.frames with
  | [] => { r with document := block :: r.document }
  | frame :: outer => { r with frames := { frame with body := block :: frame.body } :: outer }

/-- The latest block of the innermost container. -/
def latest (r : Reader) : Option Block :=
  match r.frames with
  | [] => r.document.head?
  | frame :: _ => frame.body.head?

/-- Takes back the latest block of the innermost container. -/
def dropLatest (r : Reader) : Reader :=
  match r.frames with
  | [] => { r with document := r.document.tail }
  | frame :: outer => { r with frames := { frame with body := frame.body.tail } :: outer }

/-- Opens a container. -/
def push (r : Reader) (container : Container) : Reader :=
  { r with frames := ⟨container, []⟩ :: r.frames }

/-- Closes the innermost container. -/
def close (r : Reader) : Reader :=
  match r.frames with
  | [] => r
  | frame :: outer =>
      let closed := (frame.container.toBlocks frame.body.reverse).foldl add
        { r with frames := outer }
      match frame.container with
      | .list true _ _ | .definitions _ => { closed with emptyItem := false }
      | _ => closed

/-- Closes the innermost `n` containers. -/
def closeMany : Nat → Reader → Reader
  | 0, r => r
  | n + 1, r => closeMany n r.close

def innermost (r : Reader) : Option Container := r.frames.head?.map (·.container)

/-- Whether the innermost container is a list of items or of definitions. -/
def inList (r : Reader) : Bool :=
  match r.innermost with
  | some (.list _ _ _) | some (.definitions _) => true
  | _ => false

/-- A list as it is once a blank line has stood between its parts. -/
def loosen (frame : Frame) : Frame :=
  match frame.container with
  | .list _ mark start => { frame with container := .list false mark start }
  | .definitions _ => { frame with container := .definitions false }
  | _ => frame

/-- Closes an item that began with two blank lines. -/
def finishEmptyItem (r : Reader) : Reader :=
  let item := match r.innermost with
    | some (.item _) | some (.details _) => true
    | _ => false
  let r := if r.emptyItem && r.afterBlank && item then r.close else r
  { r with emptyItem := false }

/-- Closes the list that ends before a block which is no part of it, and loosens the list around
the block if a blank line stands before it. -/
def finishList (r : Reader) : Reader :=
  let r := r.finishEmptyItem
  let r := if r.inList then r.close else r
  if r.afterBlank then
    match r.frames with
    | inner :: outer :: rest =>
        { r with frames := inner :: loosen outer :: rest, afterBlank := false }
    | _ => { r with afterBlank := false }
  else r

/-- Goes on with the innermost list if its items have the same mark, and begins one otherwise. -/
def continueList (r : Reader) (mark : Marker.ItemMark) : Reader :=
  let r := r.finishEmptyItem
  let begin_ (r : Reader) : Reader :=
    { r.push (.list true mark.mark mark.number) with afterBlank := false }
  match r.frames with
  | [] => begin_ r
  | frame :: outer =>
      match frame.container with
      | .list _ same _ =>
          if same = mark.mark then
            if r.afterBlank then { r with frames := loosen frame :: outer, afterBlank := false }
            else r
          else begin_ r.finishList
      | _ => begin_ r.finishList

/-- Begins the details of a definition, whose term is the latest paragraph. -/
def beginDetails (r : Reader) (indent : Nat) : Option Reader :=
  let titled : Option Reader := match r.innermost, r.latest with
    | some (.definitions _), some (.paragraph _ _ source) => some (r.dropLatest.add (.title source))
    | some (.definitions _), some (.container .definitionDetails _) => some r
    | _, some (.paragraph _ _ source) =>
        some ((r.dropLatest.push (.definitions true)).add (.title source))
    | _, _ => none
  titled.map fun r =>
    let r := match r.frames with
      | frame :: outer =>
          if r.afterBlank then { r with frames := loosen frame :: outer, afterBlank := false }
          else r
      | [] => r
    r.push (.details indent)

/-- What is left of a line when it has opened the containers it begins. -/
inductive Opened where
  /-- The line is used up. -/
  | done (r : Reader)
  | text (r : Reader) (at_ : Cursor)

/-- Begins a list item, which may be a task, and tells where its content goes on. -/
def beginItem (r : Reader) (mark : Marker.ItemMark) (at_ : Cursor) (indent : Nat) : Opened :=
  let r := (r.continueList mark).push (.item indent)
  if isBlankRest at_.rest then .done { r with emptyItem := true }
  else
    match Marker.task? at_ with
    | some (checked, behind) =>
        if isBlankRest behind.rest then .done { r.add (.task checked) with emptyItem := true }
        else .text { r with task := some checked } behind
    | none => .text r at_

/-- Opens the containers that begin in a line. -/
def openAll : (fuel : Nat) → Reader → Cursor → Opened
  | 0, r, at_ => .text r at_
  | fuel + 1, r, at_ =>
      let (columns, next) := at_.spaces 4
      if 4 ≤ columns then .text r at_
      else
        match Marker.item? next columns with
        | some (mark, behind, indent) =>
            match r.beginItem mark behind indent with
            | .text r at_ => openAll fuel r at_
            | done => done
        | none =>
            match (Marker.details? next columns).bind fun (behind, indent) =>
                (r.beginDetails indent).map fun r => (r, behind) with
            | some (r, behind) =>
                if isBlankRest behind.rest then .done { r with emptyItem := true }
                else openAll fuel r behind
            | none =>
                match Container.quoteMark? next with
                | some behind => openAll fuel (r.finishList.push .quote) behind
                | none => .text r at_

def beginFootnote (r : Reader) (at_ : Cursor) : Reader × Cursor :=
  match footnoteMark? at_.rest with
  | some (label, rest) =>
      let r := r.finishList
      ({ r.push (.footnote label) with footnotes := label :: r.footnotes }, { rest := rest })
  | none => (r, at_)

/-- Notes a blank line. In a block quote it does not count. -/
def blankLine (r : Reader) : Reader :=
  match r.innermost with
  | some .quote => r
  | _ => { r with afterBlank := true }

/-- The lines of indented code, without blank lines at the end, and the lines left. `held` are
blank lines that belong to the code only if more of it follows. -/
def indentedCode (containers : List Container) : (held : List Line) → List Line
    → List Line × Nat
  | _, [] => ([], 0)
  | held, line :: rest =>
      let within := inside containers line
      let (columns, at_) := within.cursor.spaces 4
      if within.whole && (columns = 4 || at_.atEnd) then
        let here : Line := ⟨at_.text, line.ending⟩
        if isBlankRest at_.rest then
          let (code, n) := indentedCode containers (here :: held) rest
          (code, if n = 0 then 0 else n + 1)
        else
          let (code, n) := indentedCode containers [] rest
          (held.reverse ++ here :: code, n + 1)
      else ([], 0)

/-- The lines of fenced code up to the closing fence, and how many lines of the text it takes. -/
def fencedCode (containers : List Container) (fence : Marker.Fence) (indent : Nat) : List Line
    → List Line × Nat
  | [] => ([], 0)
  | line :: rest =>
      let within := inside containers line
      if !within.whole then ([], 0)
      else
        let at_ := (within.cursor.spaces indent).2
        let (columns, closing) := at_.spaces (4 - indent)
        if columns < 4 - indent && fence.isClosedBy closing.rest then ([], 1)
        else
          let (code, n) := fencedCode containers fence indent rest
          (⟨at_.text, line.ending⟩ :: code, n + 1)

/-- Whether `pattern` stands somewhere in `s`. -/
def contains (pattern s : List Char) : Bool := (HtmlTag.behind? pattern s).isSome

/-- The further lines of an HTML block that ends with a mark, or with a blank line where there is no
mark. `ended` after a line that holds the mark. -/
def htmlLines (containers : List Container) (mark : Option (List Char)) : (ended : Bool) → List Line
    → List Line
  | _, [] => []
  | ended, line :: rest =>
      let within := inside containers line
      if ended || !within.whole then []
      else if mark.isNone && isBlankRest within.cursor.rest then []
      else
        let ended := (mark.map fun mark => contains mark within.cursor.rest).getD false
        ⟨within.cursor.text, line.ending⟩ :: htmlLines containers mark ended rest

/-- The further lines of a paragraph, and the level of the heading that the line below makes of
it. -/
def paragraphLines (containers : List Container) (inParagraph : Bool) : List Line
    → List Line × Option Nat
  | [] => ([], none)
  | line :: rest =>
      match continuation containers inParagraph line rest.head? with
      | .underline level => ([], some level)
      | .ends => ([], none)
      | .text source =>
          let (lines, level) := paragraphLines containers inParagraph rest
          (⟨source, line.ending⟩ :: lines, level)

def tableRows (containers : List Container) (columns : Nat) : List Line → List (List (List Char))
  | [] => []
  | line :: rest =>
      let within := inside containers line
      let s := within.cursor.rest.dropWhile isSpace
      if !within.whole || breaksOff ⟨true, false, true⟩ s then []
      else Marker.row columns s :: tableRows containers columns rest

/-- Lines joined by their endings. -/
def joinLines : List Line → List Char
  | [] => []
  | [line] => line.text
  | line :: rest => line.text ++ line.ending ++ joinLines rest

def joinFeeds (lines : List Line) : List Char :=
  List.intercalate ['\n'] (lines.map (·.text))

/-- A leaf that begins in a line: the reader behind it, and how many further lines it takes. -/
abbrev Leaf := Reader × Nat

/-- Reads a paragraph, a table or an underlined heading. -/
def paragraph (r : Reader) (source : List Char) (line : Line) (rest : List Line) : Leaf :=
  let afterDetails := match r.latest with
    | some (.container .definitionDetails _) => true
    | _ => false
  let r := match r.innermost with
    | some (.definitions _) => if afterDetails then { r with afterBlank := false } else r.finishList
    | _ => r.finishList
  let containers := r.containers
  match tableAt? containers source rest.head? with
  | some alignments =>
      let rows := tableRows containers alignments.length rest.tail
      (r.add (.table alignments (Marker.row alignments.length source) rows), rows.length + 1)
  | none =>
      let (lines, level) := paragraphLines containers true rest
      let source := joinLines (⟨source, line.ending⟩ :: lines)
      match level with
      | some level => (r.add (.heading level source []), lines.length + 1)
      | none => ({ r.add (.paragraph false r.task source) with task := none }, lines.length)

def definition? (r : Reader) (source : List Char) (line : Line) (rest : List Line) : Option Leaf :=
  match source with
  | '[' :: label =>
      let lines := (paragraphLines r.containers false rest).1
      let bare := lines.map fun line => { line with text := line.text.dropWhile isSpace }
      let whole := joinFeeds (⟨label, line.ending⟩ :: bare)
      (Link.definition? whole).map fun (definition, left) =>
        let n := whole.count '\n' - left.count '\n'
        ({ r with definitions := definition :: r.definitions }, n)
  | _ => none

def html? (r : Reader) (indent : Nat) (source : List Char) (line : Line) (rest : List Line)
    : Option Leaf :=
  match source with
  | '<' :: inner =>
      let mark := HtmlTag.endMark? inner
      if mark.isSome || HtmlTag.startsBlock inner || HtmlTag.isWholeLine inner then
        let r := r.finishList
        let ended := (mark.map fun mark => contains mark source).getD false
        let lines := htmlLines r.containers mark ended rest
        let first : Line := ⟨List.replicate indent ' ' ++ source, line.ending⟩
        some (r.add (.html (first :: lines)), lines.length)
      else none
  | _ => none

/-- Reads the leaf that begins at a place in a line. -/
def leaf (r : Reader) (at_ : Cursor) (line : Line) (rest : List Line) : Leaf :=
  let (columns, next) := at_.spaces 4
  if columns = 4 then
    let r := r.finishList
    let (lines, n) := indentedCode r.containers [] rest
    (r.add (.code .indented (⟨next.text, line.ending⟩ :: lines)), n)
  else
    let source := next.rest
    match r.html? columns source line rest with
    | some result => result
    | none =>
        if Marker.isRule source then (r.finishList.add .rule, 0)
        else
          match Marker.headingLevel? source with
          | some level =>
              let (text, closing) := Marker.headingText (source.drop level)
              (r.finishList.add (.heading level text closing), 0)
          | none =>
              match Marker.fence? source with
              | some fence =>
                  let r := r.finishList
                  let (lines, n) := fencedCode r.containers fence columns rest
                  let info := String.ofList (Link.unescape fence.info)
                  (r.add (.code (.fenced info) lines), n)
              | none => (r.definition? source line rest).getD (r.paragraph source line rest)

/-- Reads what begins in a line: the reader behind it, and how many further lines it takes. -/
def step (r : Reader) (line : Line) (rest : List Line) : Leaf :=
  let (n, at_) := Container.descend r.containers (Cursor.start line)
  let r := closeMany (r.frames.length - n) r
  let (r, at_) := r.beginFootnote at_
  match openAll (line.text.length + 1) r at_ with
  | .done r => (r, 0)
  | .text r at_ => if isBlankRest at_.rest then (r.blankLine, 0) else r.leaf at_ line rest

/-- Reads lines, the first `skip` of which belong to a leaf already read. -/
def readLines : Reader → (skip : Nat) → List Line → Reader
  | r, _, [] => r
  | r, skip + 1, _ :: rest => readLines r skip rest
  | r, 0, line :: rest =>
      let (r, n) := r.step line rest
      readLines r n rest

end Reader

/-- The block structure of a text. -/
def Outline.ofText (text : List Char) : Outline :=
  let r := Reader.readLines {} 0 (Line.ofText text)
  let r := Reader.closeMany r.frames.length r
  ⟨r.document.reverse, r.definitions.reverse, r.footnotes.reverse⟩

end Publication.Markdown
