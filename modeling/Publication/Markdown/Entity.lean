import Publication.Markdown.Entity.Table
import Publication.Text.Blank
import Publication.Text.Octets

/-!
Character references: by name, and by code point in decimal or hexadecimal.
-/

namespace Publication.Markdown.Entity

open Publication.Text

/-- A number in hexadecimal. -/
def hexNumber (digits : List Char) : Nat :=
  digits.foldl (fun n c => 16 * n + (hexValue? c).getD 0) 0

/-- A number in decimal. -/
def decimalNumber (digits : List Char) : Nat :=
  digits.foldl (fun n c => 10 * n + (c.toNat - 0x30)) 0

/-- A row of the table: a name, and the characters it stands for. -/
def row (word : List Char) : List Char × List Char :=
  (word.takeWhile (· ≠ '='),
    (splitOn ',' (word.dropWhile (· ≠ '=')).tail).map fun code => Char.ofNat (hexNumber code))

/-- The table of names. -/
def table : List (List Char × List Char) :=
  names.flatMap fun line => (words line.toList).map row

/-- The character of a code point. Zero stands for the replacement character. -/
def character? (code : Nat) : Option Char :=
  if code = 0 then some '\ufffd'
  else if h : code.isValidChar then some (Char.ofNatAux code h)
  else none

/-- A number of at most `limit` digits and a semicolon behind it: the number, and how many
characters it takes up. -/
def numeric? (isDigit : Char → Bool) (value : List Char → Nat) (limit : Nat) (s : List Char)
    : Option (Nat × Nat) :=
  let digits := (s.take limit).takeWhile isDigit
  if !digits.isEmpty && (s.drop digits.length).head? == some ';' then
    some (value digits, digits.length + 1)
  else none

/-- The reference that a text begins with: what it stands for, and its length. -/
def scan? (s : List Char) : Option (List Char × Nat) :=
  match s with
  | '&' :: '#' :: c :: rest =>
      let numbered :=
        if c == 'x' || c == 'X' then
          (numeric? (fun c => (hexValue? c).isSome) hexNumber 6 rest).map fun (n, k) => (n, k + 3)
        else (numeric? Char.isDigit decimalNumber 7 (c :: rest)).map fun (n, k) => (n, k + 2)
      numbered.bind fun (code, length) => (character? code).map fun c => ([c], length)
  | '&' :: rest =>
      let name := rest.takeWhile Char.isAlphanum
      if (rest.drop name.length).head? == some ';' then
        (table.find? (·.1 = name)).map fun (_, chars) => (chars, name.length + 2)
      else none
  | _ => none

end Publication.Markdown.Entity
