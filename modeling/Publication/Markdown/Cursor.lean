import Publication.Markdown.Line

/-!
A place in a line, which knows its column, so that a tab can be taken one column at a time.
-/

namespace Publication.Markdown

/-- The rest of a line from some column on. -/
structure Cursor where
  rest : List Char
  column : Nat := 0
  /-- Columns of a tab already passed that are still to be taken. -/
  owed : Nat := 0
deriving Repr, DecidableEq

namespace Cursor

def start (line : Line) : Cursor := { rest := line.text }

/-- Takes one column of space. -/
def space? (c : Cursor) : Option Cursor :=
  match c.owed, c.rest with
  | owed + 1, _ => some { c with owed := owed }
  | 0, ' ' :: rest => some ⟨rest, c.column + 1, 0⟩
  | 0, '\t' :: rest =>
      let width := 4 - c.column % 4
      some ⟨rest, c.column + width, width - 1⟩
  | 0, _ => none

/-- Takes up to `n` columns of space, and tells how many there were. -/
def spaces : Nat → Cursor → Nat × Cursor
  | 0, c => (0, c)
  | n + 1, c =>
      match c.space? with
      | some next => let (k, last) := spaces n next; (k + 1, last)
      | none => (0, c)

/-- Passes `n` characters that are one column wide each. -/
def advance (c : Cursor) (n : Nat) : Cursor := ⟨c.rest.drop n, c.column + n, 0⟩

/-- Whether the line ends here. -/
def atEnd (c : Cursor) : Bool := c.rest.isEmpty

/-- What is left of the line, with the columns still owed as spaces. -/
def text (c : Cursor) : List Char := List.replicate c.owed ' ' ++ c.rest

/-- Passes a marker of one character. -/
def mark? (c : Cursor) (mark : Char) : Option Cursor :=
  if c.owed = 0 && c.rest.head? == some mark then some (c.advance 1) else none

end Cursor
end Publication.Markdown
