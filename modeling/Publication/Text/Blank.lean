/-!
Blank characters, after the Unicode property `White_Space`: trimming text and cutting it into words.
-/

namespace Publication.Text

/-- A character of the Unicode property `White_Space`. -/
def isBlank (c : Char) : Bool :=
  let n := c.toNat
  (0x09 ≤ n && n ≤ 0x0D) || n == 0x20 || n == 0x85 || n == 0xA0 || n == 0x1680
    || (0x2000 ≤ n && n ≤ 0x200A) || n == 0x2028 || n == 0x2029 || n == 0x202F
    || n == 0x205F || n == 0x3000

/-- A blank character of ASCII: a tab, a line or page break, or a space. -/
def isAsciiBlank (c : Char) : Bool :=
  let n := c.toNat
  (0x09 ≤ n && n ≤ 0x0D) || n == 0x20

/-- The text without the blanks it begins with. -/
def trimStart (s : List Char) : List Char := s.dropWhile isBlank

/-- The text without the blanks it ends with. -/
def trimEnd (s : List Char) : List Char := (s.reverse.dropWhile isBlank).reverse

/-- The text without the blanks at either end. -/
def trim (s : List Char) : List Char := trimEnd (trimStart s)

/-- Nothing but blanks. -/
def allBlank (s : List Char) : Bool := s.all isBlank

/-- Cuts off the word that `s` begins with, given the characters of it already read. -/
def wordsFrom : List Char → List Char → List (List Char)
  | word, [] => if word.isEmpty then [] else [word.reverse]
  | word, c :: rest =>
      if isBlank c then
        if word.isEmpty then wordsFrom [] rest else word.reverse :: wordsFrom [] rest
      else wordsFrom (c :: word) rest

/-- The maximal runs of characters that are not blank. -/
def words (s : List Char) : List (List Char) := wordsFrom [] s

/-- `trim` on strings. -/
def trimmed (s : String) : String := String.ofList (trim s.toList)

/-- Pieces of `s` between the characters equal to `separator`, given the piece begun. -/
def splitFrom (separator : Char) : List Char → List Char → List (List Char)
  | piece, [] => [piece.reverse]
  | piece, c :: rest =>
      if c = separator then piece.reverse :: splitFrom separator [] rest
      else splitFrom separator (c :: piece) rest

/-- All pieces of `s` between the characters equal to `separator`, empty ones too. -/
def splitOn (separator : Char) (s : List Char) : List (List Char) := splitFrom separator [] s

/-- The rest of `s` behind `start`, if `s` begins with it. -/
def strip? : List Char → List Char → Option (List Char)
  | [], s => some s
  | _ :: _, [] => none
  | a :: start, c :: s => if a = c then strip? start s else none

/-- The part of `s` before `ending`, if `s` ends with it. -/
def stripEnd? (ending s : List Char) : Option (List Char) :=
  (strip? ending.reverse s.reverse).map List.reverse

end Publication.Text
