import Publication.Markdown.Entity
import Publication.Markdown.Line
import Publication.Text.CaseFold
import Publication.Text.Punctuation

/-!
The parts of links: labels, destinations and titles. Each scan gives what it read and what is left.
-/

namespace Publication.Markdown.Link

open Publication.Text

/-- Replaces backslash escapes and character references, given enough fuel for the length. -/
def unescapeFrom : (fuel : Nat) → List Char → List Char
  | 0, s => s
  | _ + 1, [] => []
  | fuel + 1, '\\' :: c :: rest =>
      if isAsciiPunctuation c then c :: unescapeFrom fuel rest
      else '\\' :: unescapeFrom fuel (c :: rest)
  | fuel + 1, '\r' :: rest => unescapeFrom fuel rest
  | fuel + 1, c :: rest =>
      match Entity.scan? (c :: rest) with
      | some (chars, length) => chars ++ unescapeFrom fuel (rest.drop (length - 1))
      | none => c :: unescapeFrom fuel rest

/-- A text with its backslash escapes and character references replaced, and without carriage
returns. -/
def unescape (s : List Char) : List Char := unescapeFrom s.length s

/-- Reads a label behind its opening bracket up to the closing one. Blanks are collapsed; a label
may hold one line break at a place, but no bracket that is not escaped. `room` bounds its length. -/
def labelFrom (breaks : Bool) : (room : Nat) → List Char → List Char
    → Option (List Char × List Char)
  | 0, _, _ => none
  | _ + 1, _, [] => none
  | room + 1, read, c :: rest =>
      if c = '[' then none
      else if c = ']' then some (read.reverse, rest)
      else if c = '\\' then
        match rest with
        | d :: more =>
            if isAsciiPunctuation d then
              match room with
              | room + 1 => labelFrom breaks room (d :: c :: read) more
              | 0 => none
            else labelFrom breaks room (c :: read) rest
        | [] => none
      else if isAsciiBlank c then
        if isBreak c && !breaks then none
        else
          let read := if read.head? == some ' ' then read else ' ' :: read
          labelFrom breaks room read rest
      else labelFrom breaks room (c :: read) rest

/-- A label behind its opening bracket, trimmed. It must not be blank. -/
def label? (breaks : Bool) (s : List Char) : Option (List Char × List Char) :=
  (labelFrom breaks 1000 [] s).bind fun (text, rest) =>
    let label := ((text.dropWhile isAsciiBlank).reverse.dropWhile isAsciiBlank).reverse
    if label.isEmpty then none else some (label, rest)

/-- Two labels are the same if they agree in this form. -/
def labelKey (label : List Char) : List Char := foldCase label

/-- A destination in angle brackets, behind the first one. -/
def pointed? : List Char → List Char → Option (List Char × List Char)
  | _, [] => none
  | read, '\\' :: d :: more =>
      if isAsciiPunctuation d then pointed? (d :: '\\' :: read) more
      else pointed? ('\\' :: read) (d :: more)
  | read, c :: rest =>
      if isBreak c || c = '<' then none
      else if c = '>' then some (read.reverse, rest)
      else pointed? (c :: read) rest

/-- A destination without angle brackets, up to a blank or a bracket that it did not open. `nest`
counts the brackets that are open. -/
def bare? : (nest : Nat) → List Char → List Char → Option (List Char × List Char)
  | _, read, [] => some (read.reverse, [])
  | nest, read, '\\' :: d :: more =>
      if isAsciiPunctuation d then bare? nest (d :: '\\' :: read) more
      else bare? nest ('\\' :: read) (d :: more)
  | nest, read, c :: rest =>
      if c.toNat ≤ 0x20 then some (read.reverse, c :: rest)
      else if c = '(' then if 32 < nest then none else bare? (nest + 1) (c :: read) rest
      else if c = ')' then
        match nest with
        | 0 => some (read.reverse, c :: rest)
        | nest + 1 => bare? nest (c :: read) rest
      else bare? nest (c :: read) rest

/-- A destination as it is written. -/
def destination? (s : List Char) : Option (List Char × List Char) :=
  match s with
  | '<' :: rest => pointed? [] rest
  | _ => bare? 0 [] s

/-- What closes a title that opens with a character. -/
def titleEnd? (c : Char) : Option Char :=
  if c == '(' then some ')' else if c == '\x22' || c == '\x27' then some c else none

/-- Reads a title up to its end, as it is written but without the spaces that its further lines
begin with. Between parentheses it holds no opening one that is not escaped. -/
def titleFrom (last : Char) : (lineStart : Bool) → List Char → List Char
    → Option (List Char × List Char)
  | _, _, [] => none
  | _, read, '\\' :: d :: more =>
      if isAsciiPunctuation d then titleFrom last false (d :: '\\' :: read) more
      else titleFrom last false ('\\' :: read) (d :: more)
  | lineStart, read, c :: rest =>
      if lineStart && isSpace c then titleFrom last true read rest
      else if c = last then some (read.reverse, rest)
      else if c = '(' && last = ')' then none
      else if c = '\r' then
        titleFrom last true (if rest.head? == some '\n' then read else '\n' :: read) rest
      else if c = '\n' then titleFrom last true (c :: read) rest
      else titleFrom last false (c :: read) rest

/-- A title as it is written. -/
def title? (s : List Char) : Option (List Char × List Char) :=
  match s with
  | [] => none
  | c :: rest => (titleEnd? c).bind fun last => titleFrom last false [] rest

/-- Passes one line break. -/
def skipBreak (s : List Char) : List Char :=
  match s with
  | '\r' :: '\n' :: rest => rest
  | '\r' :: rest => rest
  | '\n' :: rest => rest
  | s => s

/-- Passes blanks, which may include one line break. -/
def skipBlanks (s : List Char) : List Char :=
  (skipBreak (s.dropWhile isInlineBlank)).dropWhile isInlineBlank

/-- Where a link leads: its destination and its title, both unescaped. -/
structure Target where
  dest : String
  title : String
deriving Repr, DecidableEq

def inline? (s : List Char) : Option (Target × List Char) :=
  match s with
  | '(' :: rest =>
      (destination? (skipBlanks rest)).bind fun (dest, rest) =>
        let rest := skipBlanks rest
        let (title, rest) := match title? rest with
          | some (title, rest) => (title, skipBlanks rest)
          | none => ([], rest)
        match rest with
        | ')' :: rest =>
            some (⟨String.ofList (unescape dest), String.ofList (unescape title)⟩, rest)
        | _ => none
  | _ => none

/-- A link definition: the label by which links refer to a target. -/
structure Definition where
  label : List Char
  target : Target
deriving Repr, DecidableEq

/-- The definition that a text begins with, behind its opening bracket, and what is left from the
end of its last line on. The text is the paragraph that the definition would be part of. -/
def definition? (s : List Char) : Option (Definition × List Char) :=
  (label? true s).bind fun (label, rest) =>
    match rest with
    | ':' :: rest =>
        let before := skipBlanks rest
        (destination? before).bind fun (dest, after) =>
          if after.length = before.length then none
          else
            let lineEnd := after.dropWhile isInlineBlank
            let plain : Definition := ⟨label, String.ofList (unescape dest), ""⟩
            let endsLine := (lineEnd.head?.map isBreak).getD true
            let next := skipBlanks after
            if next.length = after.length && !after.isEmpty then none
            else
              match title? next with
              | some (title, rest) =>
                  let rest := rest.dropWhile isInlineBlank
                  if (rest.head?.map isBreak).getD true then
                    some (⟨label, plain.target.dest, String.ofList (unescape title)⟩, rest)
                  else if endsLine then some (plain, lineEnd)
                  else none
              | none => if endsLine then some (plain, lineEnd) else none
    | _ => none

end Publication.Markdown.Link
