import Publication.Mismatch
import Publication.Text.Octets

/-!
Reading JSON into values of a known shape. The text is read once from its start; the first thing
that is wrong with it, as text or as a value, is the error.
-/

namespace Publication.Json

open Publication.Number
open Publication.Text

/-- Why a text does not hold the wanted value. -/
inductive ReadError where
  /-- The text ends inside a value. -/
  | unfinished
  /-- The text is not JSON. -/
  | malformed
  /-- The text is JSON so far, but not of the wanted shape. -/
  | mismatch (mismatch : Mismatch)
deriving Repr, DecidableEq, Inhabited

/-- What is wrong with the shape, in words. -/
def mismatchText (mismatch : Mismatch) : String := mismatch.text .compact

/-- A reader takes a value off a text. -/
abbrev Reader (α : Type) := List Char → Except ReadError (α × List Char)

/-- Space between the parts of a text. -/
def isSpace (c : Char) : Bool := c == ' ' || c == '\n' || c == '\t' || c == '\r'

/-- What stands behind the space that a text begins with. -/
def skipSpace (s : List Char) : List Char := s.dropWhile isSpace

/-- The rest of a word that has been begun. -/
def word : List Char → List Char → Except ReadError (List Char)
  | [], s => .ok s
  | _ :: _, [] => .error .unfinished
  | c :: rest, d :: s => if c = d then word rest s else .error .malformed

/-- The number of octets that a text has in UTF-8. -/
def octetCount (s : List Char) : Nat := s.foldl (fun n c => n + c.utf8Size) 0

/-- Reads four hexadecimal digits. What is shorter than four octets is not finished. -/
def readHex (s : List Char) : Except ReadError (Nat × List Char) :=
  if octetCount (s.take 4) < 4 then .error .unfinished
  else
    match (s.take 4).mapM hexValue? with
    | some [a, b, c, d] => .ok (((a * 16 + b) * 16 + c) * 16 + d, s.drop 4)
    | _ => .error .malformed

/-- The character of the letter behind a backslash. -/
def escape? : Char → Option Char
  | '"' => some '"'
  | '\\' => some '\\'
  | '/' => some '/'
  | 'b' => some (Char.ofNat 8)
  | 'f' => some (Char.ofNat 12)
  | 'n' => some '\n'
  | 'r' => some '\r'
  | 't' => some '\t'
  | _ => none

/-- Reads a character given by number. Characters beyond sixteen bits are given by two numbers. -/
def readCodePoint (s : List Char) : Except ReadError (Char × List Char) :=
  match readHex s with
  | .error e => .error e
  | .ok (n, rest) =>
      if 0xDC00 ≤ n && n ≤ 0xDFFF then .error .malformed
      else if n < 0xD800 || 0xDBFF < n then .ok (Char.ofNat n, rest)
      else
        match rest with
        | [] => .error .unfinished
        | ['\\'] => .error .unfinished
        | '\\' :: 'u' :: more =>
            match readHex more with
            | .error e => .error e
            | .ok (m, more) =>
                if m < 0xDC00 || 0xDFFF < m then .error .malformed
                else .ok (Char.ofNat ((n - 0xD800) * 1024 + (m - 0xDC00) + 0x10000), more)
        | _ => .error .malformed

/-- Reads what stands behind a backslash. -/
def readEscape : Reader Char
  | [] => .error .unfinished
  | 'u' :: rest => readCodePoint rest
  | c :: rest =>
      match escape? c with
      | some d => .ok (d, rest)
      | none => .error .malformed

/-- Reads a text up to its quote, given the characters already read. -/
def readCharacters : Nat → List Char → Reader String
  | 0, _, _ => .error .unfinished
  | _ + 1, _, [] => .error .unfinished
  | fuel + 1, done, c :: rest =>
      if c = '"' then .ok (String.ofList done.reverse, rest)
      else if c = '\\' then
        match readEscape rest with
        | .ok (d, rest) => readCharacters fuel (d :: done) rest
        | .error e => .error e
      else if c.toNat < 0x20 then .error .malformed
      else readCharacters fuel (c :: done) rest

/-- Reads a text behind its first quote. -/
def readText (s : List Char) : Except ReadError (String × List Char) :=
  readCharacters (s.length + 1) [] s

/-- The nearest number to a quotient as a magnitude, or an error where it is too large. -/
def ranged (n d : Nat) : Except ReadError Magnitude :=
  match nearest? n d with
  | some m => .ok m
  | none => .error .malformed

/-- A magnitude times a power of ten, each rounded. -/
def scaled (m : Magnitude) (exponent : Int) : Except ReadError Magnitude :=
  let (top, bottom) := m.quotient
  match nearest? (Nat.pow 10 exponent.natAbs) 1 with
  | none => .error .malformed
  | some power =>
      let (p, q) := power.quotient
      if 0 ≤ exponent then ranged (top * p) (bottom * q) else ranged (top * q) (bottom * p)

/-- The magnitude of a whole number times a power of ten. Beyond the powers that are numbers
themselves the scaling goes in steps. -/
def magnitudeOf (significand : Nat) (exponent : Int) : Except ReadError Magnitude :=
  match ranged significand 1 with
  | .error e => .error e
  | .ok m =>
      if m.significand = 0 then .ok m
      else if exponent.natAbs ≤ 308 then scaled m exponent
      else if 0 < exponent then .error .malformed
      else
        match scaled m (-308) with
        | .error e => .error e
        | .ok m =>
            if exponent.natAbs ≤ 616 then scaled m (exponent + 308) else .ok ⟨0, -1074⟩

/-- The floating-point number of a sign, a whole number and a power of ten. -/
def floatOf (negative : Bool) (significand : Nat) (exponent : Int) (rest : List Char) :
    Except ReadError (Found × List Char) :=
  match magnitudeOf significand exponent with
  | .ok m => .ok (.float (.finite negative m), rest)
  | .error e => .error e

def digitOf (c : Char) : Nat := c.toNat - 0x30

/-- Adds digits to a number of 64 bits as long as it stays one. Returns it, the number of digits
added, and the rest. -/
def addDigits : Nat → Nat → List Char → Nat × Nat × List Char
  | n, count, [] => (n, count, [])
  | n, count, c :: rest =>
      let next := n * 10 + digitOf c
      if c.isDigit && next < Nat.pow 2 64 then addDigits next (count + 1) rest
      else (n, count, c :: rest)

/-- Reads an exponent behind its letter. -/
def readExponent (negative : Bool) (significand : Nat) (exponent : Int) (s : List Char) :
    Except ReadError (Found × List Char) :=
  let (down, digits) := match s with
    | '-' :: rest => (true, rest)
    | '+' :: rest => (false, rest)
    | rest => (false, rest)
  match digits with
  | [] => .error .unfinished
  | c :: _ =>
      if !c.isDigit then .error .malformed
      else
        let size := (digits.takeWhile Char.isDigit).foldl (fun n d => n * 10 + digitOf d) 0
        let rest := digits.dropWhile Char.isDigit
        if Nat.pow 2 31 ≤ size then
          if significand ≠ 0 && !down then .error .malformed
          else .ok (.float (.finite negative ⟨0, -1074⟩), rest)
        else
          floatOf negative significand (if down then exponent - size else exponent + size) rest

/-- Reads what may follow the digits of a number. -/
def readTail (negative : Bool) (significand : Nat) (exponent : Int) :
    List Char → Except ReadError (Found × List Char)
  | c :: rest =>
      if c = 'e' || c = 'E' then readExponent negative significand exponent rest
      else floatOf negative significand exponent (c :: rest)
  | [] => floatOf negative significand exponent []

/-- Reads a fraction behind its point. Digits beyond 64 bits do not count. -/
def readFraction (negative : Bool) (significand : Nat) (exponent : Int) (s : List Char) :
    Except ReadError (Found × List Char) :=
  let (significand, count, rest) := addDigits significand 0 s
  match rest with
  | [] =>
      if count = 0 then .error .unfinished else floatOf negative significand (exponent - count) []
  | c :: more =>
      if c.isDigit then
        readTail negative significand (exponent - count) ((c :: more).dropWhile Char.isDigit)
      else if count = 0 then .error .malformed
      else readTail negative significand (exponent - count) (c :: more)

/-- Reads what may follow the digits before the point of a number. -/
def readNumberTail (negative : Bool) (significand : Nat) (dropped : Nat) :
    List Char → Except ReadError (Found × List Char)
  | c :: rest =>
      if c = '.' then readFraction negative significand dropped rest
      else if c = 'e' || c = 'E' then readExponent negative significand dropped rest
      else whole (c :: rest)
  | [] => whole []
where
  /-- A number without a fraction. Those that do not fit an integer, and the negative zero, are
  floating-point numbers. -/
  whole (rest : List Char) : Except ReadError (Found × List Char) :=
    if 0 < dropped then floatOf negative significand dropped rest
    else if !negative then .ok (.integer significand, rest)
    else if 0 < significand && significand ≤ Nat.pow 2 63 then .ok (.integer (-significand), rest)
    else floatOf true significand 0 rest

/-- Reads a number behind its sign. -/
def readNumber (negative : Bool) (s : List Char) : Except ReadError (Found × List Char) :=
  match s with
  | [] => .error .unfinished
  | '0' :: rest =>
      if (rest.head?.map Char.isDigit).getD false then .error .malformed
      else readNumberTail negative 0 0 rest
  | c :: _ =>
      if !c.isDigit then .error .malformed
      else
        let (significand, _, rest) := addDigits 0 0 s
        let dropped := rest.takeWhile Char.isDigit
        readNumberTail negative significand dropped.length (rest.dropWhile Char.isDigit)

/-- Reads the start of a value, as far as is needed to tell what it is. -/
def readStart : Reader Found
  | [] => .error .unfinished
  | c :: rest =>
      if c = 'n' then (word "ull".toList rest).map fun rest => (.null, rest)
      else if c = 't' then (word "rue".toList rest).map fun rest => (.boolean true, rest)
      else if c = 'f' then (word "alse".toList rest).map fun rest => (.boolean false, rest)
      else if c = '-' then readNumber true rest
      else if c.isDigit then readNumber false (c :: rest)
      else if c = '"' then (readText rest).map fun (text, rest) => (.string text, rest)
      else if c = '[' then .ok (.sequence, rest)
      else if c = '{' then .ok (.map, rest)
      else .error .malformed

/-- The failure to find something. -/
def unfit {α : Type} (found : Found) (wanted : String) : Except ReadError α :=
  .error (.mismatch (.type found wanted))

def readString : Reader String := fun s =>
  match readStart (skipSpace s) with
  | .ok (.string text, rest) => .ok (text, rest)
  | .ok (found, _) => unfit found "a string"
  | .error e => .error e

/-- Reads a truth value. -/
def readBool : Reader Bool := fun s =>
  match readStart (skipSpace s) with
  | .ok (.boolean b, rest) => .ok (b, rest)
  | .ok (found, _) => unfit found "a boolean"
  | .error e => .error e

def readOctet : Reader Nat := fun s =>
  match readStart (skipSpace s) with
  | .ok (.integer n, rest) =>
      if 0 ≤ n && n < 256 then .ok (n.toNat, rest)
      else .error (.mismatch (.value (.integer n) "u8"))
  | .ok (found, _) => unfit found "u8"
  | .error e => .error e

/-- Reads a value or null. -/
def readOption {α : Type} (read : Reader α) : Reader (Option α) := fun s =>
  match skipSpace s with
  | 'n' :: rest => (word "ull".toList rest).map fun rest => (none, rest)
  | s => (read s).map fun (a, rest) => (some a, rest)

/-- What stands before the next item of a sequence: nothing before the first one, a comma before
others. No text is returned at the end of the sequence, whose bracket is left. -/
def nextItem (first : Bool) (s : List Char) : Except ReadError (Option (List Char)) :=
  match skipSpace s with
  | [] => .error .unfinished
  | ']' :: _ => .ok none
  | c :: rest =>
      if first then .ok (some (c :: rest))
      else if c = ',' then
        match skipSpace rest with
        | [] => .error .unfinished
        | ']' :: _ => .error .malformed
        | s => .ok (some s)
      else .error .malformed

/-- The end of a sequence or an object. -/
def close (bracket : Char) (s : List Char) : Except ReadError (List Char) :=
  match skipSpace s with
  | [] => .error .unfinished
  | c :: rest => if c = bracket then .ok rest else .error .malformed

/-- Reads the items of a sequence, given those already read. -/
def readItems {α : Type} (read : Reader α) : Nat → List α → Reader (List α)
  | 0, _, _ => .error .unfinished
  | fuel + 1, done, s =>
      match nextItem done.isEmpty s with
      | .error e => .error e
      | .ok none => (close ']' s).map fun rest => (done.reverse, rest)
      | .ok (some s) =>
          match read s with
          | .ok (a, rest) => readItems read fuel (a :: done) rest
          | .error e => .error e

def readSequence {α : Type} (read : Reader α) : Reader (List α) := fun s =>
  match readStart (skipSpace s) with
  | .ok (.sequence, rest) => readItems read (rest.length + 1) [] rest
  | .ok (found, _) => unfit found "a sequence"
  | .error e => .error e

/-- What stands before the next key of an object: nothing before the first one, a comma before
others. No text is returned at the end of the object, whose brace is left. -/
def nextKey (first : Bool) (s : List Char) : Except ReadError (Option (List Char)) :=
  match skipSpace s with
  | [] => .error .unfinished
  | '}' :: _ => .ok none
  | c :: rest =>
      if first then if c = '"' then .ok (some rest) else .error .malformed
      else if c = ',' then
        match skipSpace rest with
        | [] => .error .unfinished
        | '"' :: rest => .ok (some rest)
        | _ => .error .malformed
      else .error .malformed

/-- What stands behind the colon of a key. -/
def behindColon (s : List Char) : Except ReadError (List Char) :=
  match skipSpace s with
  | [] => .error .unfinished
  | ':' :: rest => .ok rest
  | _ => .error .malformed

end Publication.Json
