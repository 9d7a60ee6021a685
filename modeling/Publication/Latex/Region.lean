import Publication.Text.Lines

/-!
LaTeX regions of a document body. A region begins on a line that opens it after a blank line, and
ends with a closing line before a blank line. Fenced code is never searched for regions.
-/

namespace Publication.Latex

open Publication.Text

/-- What the first line of a region begins with. -/
def opener : List Char := "\\begin\x7blatex\x7d[".toList

/-- The last line of a region. -/
def closer : List Char := "\\end\x7blatex\x7d".toList

/-- A stretch of a document body. -/
inductive Part where
  | markdown (text : List Char)
  | latex (raw : List Char)
deriving Repr, DecidableEq

def Part.text : Part → List Char
  | .markdown text => text
  | .latex raw => raw

/-- The run of three or more marks that a line opens fenced code with, behind at most three
spaces. -/
def fence? (line : List Char) : Option (List Char) :=
  let indent := (line.takeWhile (· = ' ')).length
  match line.drop indent with
  | mark :: rest =>
      let run := mark :: rest.takeWhile (· = mark)
      if indent ≤ 3 && (mark == '\x60' || mark == '~') && 3 ≤ run.length then some run else none
  | [] => none

/-- A line of nothing but marks closes fenced code that was opened by no more of the same. -/
def closesFence (fence line : List Char) : Bool :=
  let marks := trim line
  fence.length ≤ marks.length && marks.all fun c => fence.head? == some c

/-- The number of lines of the region that the first line opens: up to a closing line before a
blank line, or all. -/
def regionLength : List (List Char) → Nat
  | [] => 0
  | line :: rest =>
      if trimEnd line = closer && (rest.head?.map allBlank).getD true then 1
      else regionLength rest + 1

/-- What the scan of a body knows between two lines. -/
structure Scan where
  /-- The fence of the code being read. -/
  fence : Option (List Char) := none
  /-- Whether the line before is blank or there is none. -/
  afterBlank : Bool := true
  /-- Markdown lines not yet handed out, latest first. -/
  pending : List (List Char) := []

/-- The markdown that is pending, if any. -/
def Scan.flush (scan : Scan) : List Part :=
  if scan.pending.isEmpty then [] else [.markdown scan.pending.reverse.flatten]

/-- Scans lines, the first `skip` of which belong to a region already handed out. -/
def scanLines : Scan → (skip : Nat) → List (List Char) → List Part
  | scan, _, [] => scan.flush
  | scan, skip + 1, _ :: rest => scanLines scan skip rest
  | scan, 0, line :: rest =>
      let kept := line :: scan.pending
      match scan.fence with
      | some fence =>
          let still := if closesFence fence line then none else some fence
          scanLines ⟨still, false, kept⟩ 0 rest
      | none =>
          match fence? line with
          | some fence => scanLines ⟨some fence, false, kept⟩ 0 rest
          | none =>
              if scan.afterBlank && (strip? opener line).isSome then
                let more := regionLength (line :: rest) - 1
                scan.flush ++ .latex (line :: rest.take more).flatten
                  :: scanLines ⟨none, false, []⟩ more rest
              else scanLines ⟨none, allBlank line, kept⟩ 0 rest

/-- The parts of a body in order. They concatenate to it. -/
def parts (body : List Char) : List Part := scanLines {} 0 (lines body)

end Publication.Latex
