import Publication.Text.Blank
import Publication.Text.Octets

/-!
Strings of TOML: with escapes or without, on one line or on several.
-/

namespace Publication.Toml

open Publication.Text

/-- A text that has been read, and what stands behind it. -/
abbrev Reading (α : Type) := Option (α × List Char)

/-- A space or a tab. -/
def isSpace (c : Char) : Bool := c == ' ' || c == '\t'

/-- What stands behind the spaces that a text begins with. -/
def skipSpace (s : List Char) : List Char := s.dropWhile isSpace

/-- What stands behind a line break, if the text begins with one. -/
def newline? : List Char → Option (List Char)
  | '\n' :: rest => some rest
  | '\r' :: '\n' :: rest => some rest
  | _ => none

/-- A character that may stand in comments and strings: no control character but the tab. -/
def isPlain (c : Char) : Bool := c == '\t' || (0x20 ≤ c.toNat && c.toNat ≠ 0x7F)

/-- The character with a number in hexadecimal, if there is one. -/
def characterOf? (digits : List Char) : Option Char :=
  (digits.mapM hexValue?).bind fun values =>
    let n := values.foldl (fun n d => n * 16 + d) 0
    if n < 0xD800 || (0xDFFF < n && n < 0x110000) then some (Char.ofNat n) else none

/-- The character that the letter behind a backslash stands for. -/
def escape? : Char → Option Char
  | 'b' => some (Char.ofNat 8)
  | 't' => some '\t'
  | 'n' => some '\n'
  | 'f' => some (Char.ofNat 12)
  | 'r' => some '\r'
  | '"' => some '"'
  | '\\' => some '\\'
  | _ => none

/-- Reads what stands behind a backslash. -/
def escaped? : List Char → Reading Char
  | 'u' :: rest =>
      if rest.length < 4 then none else (characterOf? (rest.take 4)).map (·, rest.drop 4)
  | 'U' :: rest =>
      if rest.length < 8 then none else (characterOf? (rest.take 8)).map (·, rest.drop 8)
  | c :: rest => (escape? c).map (·, rest)
  | [] => none

/-- What stands behind a line break and all spaces and line breaks that follow. -/
def skipLines : Nat → List Char → List Char
  | 0, s => s
  | fuel + 1, s =>
      match newline? s with
      | some rest => skipLines fuel rest
      | none =>
          match s with
          | c :: rest => if isSpace c then skipLines fuel rest else s
          | [] => s

/-- Reads a string with escapes up to its quote, given the characters already read. -/
def basic : Nat → List Char → List Char → Reading String
  | 0, _, _ => none
  | fuel + 1, done, s =>
      match s with
      | '"' :: rest => some (String.ofList done.reverse, rest)
      | '\\' :: rest => (escaped? rest).bind fun (c, rest) => basic fuel (c :: done) rest
      | c :: rest => if isPlain c then basic fuel (c :: done) rest else none
      | [] => none

/-- Reads a string without escapes up to its quote. -/
def literal : List Char → List Char → Reading String
  | _, [] => none
  | done, c :: rest =>
      if c = '\'' then some (String.ofList done.reverse, rest)
      else if isPlain c then literal (c :: done) rest
      else none

/-- The marks at the end of a string on several lines: three end it, at most two before them
belong to it. -/
def closing? (mark : Char) (done s : List Char) : Reading String :=
  let run := (s.takeWhile (· = mark)).length
  if run < 3 then none
  else
    let kept := min (run - 3) 2
    some (String.ofList (List.replicate kept mark ++ done).reverse, s.drop (kept + 3))

/-- Reads a string with escapes on several lines. A backslash at the end of a line leaves out the
break and all space behind it. -/
def basicLines : Nat → List Char → List Char → Reading String
  | 0, _, _ => none
  | fuel + 1, done, s =>
      match closing? '"' done s with
      | some found => some found
      | none =>
          match newline? s with
          | some rest => basicLines fuel ('\n' :: done) rest
          | none =>
              match s with
              | '\\' :: rest =>
                  match newline? (skipSpace rest) with
                  | some more => basicLines fuel done (skipLines more.length more)
                  | none =>
                      (escaped? rest).bind fun (c, rest) => basicLines fuel (c :: done) rest
              | c :: rest => if isPlain c then basicLines fuel (c :: done) rest else none
              | [] => none

/-- Reads a string without escapes on several lines. -/
def literalLines : Nat → List Char → List Char → Reading String
  | 0, _, _ => none
  | fuel + 1, done, s =>
      match closing? '\'' done s with
      | some found => some found
      | none =>
          match newline? s with
          | some rest => literalLines fuel ('\n' :: done) rest
          | none =>
              match s with
              | c :: rest => if isPlain c then literalLines fuel (c :: done) rest else none
              | [] => none

/-- What stands behind a line break, or else the text. -/
def withoutFirstBreak (s : List Char) : List Char := (newline? s).getD s

/-- Reads a string on one line. -/
def lineString? : List Char → Reading String
  | '"' :: rest => basic (rest.length + 1) [] rest
  | '\'' :: rest => literal [] rest
  | _ => none

def string? : List Char → Reading String
  | '"' :: '"' :: '"' :: rest => basicLines (rest.length + 1) [] (withoutFirstBreak rest)
  | '\'' :: '\'' :: '\'' :: rest => literalLines (rest.length + 1) [] (withoutFirstBreak rest)
  | s => lineString? s

end Publication.Toml
