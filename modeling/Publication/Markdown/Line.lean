/-!
Physical lines. A line feed, a carriage return, or both together end a line.
-/

namespace Publication.Markdown

/-- A line and what ends it, which is nothing at the end of the text. -/
structure Line where
  text : List Char
  ending : List Char
deriving Repr, DecidableEq

namespace Line

/-- The lines of a text, given the characters of the first one already read. -/
def split : List Char → List Char → List Line
  | read, [] => if read.isEmpty then [] else [⟨read.reverse, []⟩]
  | read, '\r' :: '\n' :: rest => ⟨read.reverse, ['\r', '\n']⟩ :: split [] rest
  | read, '\r' :: rest => ⟨read.reverse, ['\r']⟩ :: split [] rest
  | read, '\n' :: rest => ⟨read.reverse, ['\n']⟩ :: split [] rest
  | read, c :: rest => split (c :: read) rest

def ofText (text : List Char) : List Line := split [] text

end Line

/-- A space or a tab. -/
def isSpace (c : Char) : Bool := c == ' ' || c == '\t'

/-- A blank of ASCII that does not end a line. -/
def isInlineBlank (c : Char) : Bool :=
  c == ' ' || c == '\t' || c == '\x0b' || c == '\x0c'

def isBreak (c : Char) : Bool := c == '\n' || c == '\r'

/-- Nothing but blanks up to the end of a line. -/
def isBlankRest (rest : List Char) : Bool := rest.all isInlineBlank

/-- The part of a text before the blanks it ends with. -/
def trimEndBlanks (s : List Char) : List Char := (s.reverse.dropWhile isInlineBlank).reverse

/-- The number of characters at the start of a text that satisfy a test. -/
def countWhile (test : Char → Bool) (s : List Char) : Nat := (s.takeWhile test).length

end Publication.Markdown
