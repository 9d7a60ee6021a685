import Publication.Toml.Text
import Publication.Toml.Value

/-!
Numbers, truth values and times of TOML. Each is a word of letters, digits and a few signs.
-/

namespace Publication.Toml

open Publication.Number
open Publication.Text

/-- Cuts off digits, among which single underscores may stand. -/
def digitRun (isDigit : Char → Bool) : List Char → List Char → List Char × List Char
  | done, [] => (done.reverse, [])
  | done, '_' :: d :: rest =>
      if isDigit d && !done.isEmpty then digitRun isDigit (d :: done) rest
      else (done.reverse, '_' :: d :: rest)
  | done, c :: rest =>
      if isDigit c then digitRun isDigit (c :: done) rest else (done.reverse, c :: rest)

def digitsValue (base : Nat) (digits : List Char) : Nat :=
  digits.foldl (fun n d => n * base + (hexValue? d).getD 0) 0

/-- Whether an integer has 64 bits with its sign. -/
def isWord (n : Int) : Bool := -0x8000000000000000 ≤ n && n < 0x8000000000000000

/-- The integer of a base that a word is, behind the mark of the base. -/
def radix? (base : Nat) (isDigit : Char → Bool) (word : List Char) : Option Value :=
  match digitRun isDigit [] word with
  | (d :: digits, []) =>
      let n : Int := digitsValue base (d :: digits)
      if isWord n then some (.integer n) else none
  | _ => none

/-- The exponent that a word is. -/
def exponent? : List Char → Option Int
  | [] => some 0
  | c :: rest =>
      if c ≠ 'e' && c ≠ 'E' then none
      else
        let (negative, rest) := match rest with
          | '-' :: rest => (true, rest)
          | '+' :: rest => (false, rest)
          | rest => (false, rest)
        match digitRun Char.isDigit [] rest with
        | (d :: digits, []) =>
            let n : Int := digitsValue 10 (d :: digits)
            some (if negative then -n else n)
        | _ => none

/-- The fraction that a word begins with: its digits. -/
def fraction? : List Char → Reading (List Char)
  | '.' :: rest =>
      match digitRun Char.isDigit [] rest with
      | (d :: digits, rest) => some (d :: digits, rest)
      | _ => none
  | rest => some ([], rest)

/-- The floating-point number with these parts. What is too large is infinite, which is an error
only above zero. -/
def floatOf (negative : Bool) (digits : List Char) (exponent : Int) : Option Value :=
  match ofDecimal? (digitsValue 10 digits) exponent with
  | some magnitude => some (.float (.finite negative magnitude))
  | none => if negative then some (.float (.infinite true)) else none

/-- The decimal number that a word without its sign is. -/
def decimal? (negative : Bool) (word : List Char) : Option Value :=
  match digitRun Char.isDigit [] word with
  | ([], _) => none
  | (d :: digits, rest) =>
      if d = '0' && !digits.isEmpty then none
      else if rest.isEmpty then
        let n : Int := digitsValue 10 (d :: digits)
        let n := if negative then -n else n
        if isWord n then some (.integer n) else none
      else
        (fraction? rest).bind fun (fraction, rest) =>
          (exponent? rest).bind fun exponent =>
            floatOf negative (d :: digits ++ fraction) (exponent - fraction.length)

/-- The number behind a sign. -/
def signed? (negative : Bool) (word : List Char) : Option Value :=
  if word = "inf".toList then some (.float (.infinite negative))
  else if word = "nan".toList then some (.float .nan)
  else decimal? negative word

/-- A decimal number of exactly two digits below a limit. -/
def pair? (limit : Nat) : List Char → Reading Nat
  | a :: b :: rest =>
      let n := digitsValue 10 [a, b]
      if a.isDigit && b.isDigit && n ≤ limit then some (n, rest) else none
  | _ => none

/-- What stands behind a mark. -/
def behind? (mark : Char) : List Char → Option (List Char)
  | c :: rest => if c = mark then some rest else none
  | [] => none

/-- A year with a day in February more. -/
def isLeapYear (year : Nat) : Bool := year % 4 == 0 && (year % 100 != 0 || year % 400 == 0)

/-- The number of days of a month. -/
def daysIn (year month : Nat) : Nat :=
  if month = 2 then if isLeapYear year then 29 else 28
  else if month ∈ [4, 6, 9, 11] then 30
  else 31

/-- What stands behind a date. -/
def date? (s : List Char) : Option (List Char) :=
  if (s.take 4).length < 4 || !(s.take 4).all Char.isDigit then none
  else do
    let rest ← behind? '-' (s.drop 4)
    let (month, rest) ← pair? 12 rest
    let rest ← behind? '-' rest
    let (day, rest) ← pair? 31 rest
    if month = 0 || day = 0 || daysIn (digitsValue 10 (s.take 4)) month < day then none
    else some rest

/-- What stands behind a time of day. -/
def clock? (s : List Char) : Option (List Char) := do
  let (_, rest) ← pair? 23 s
  let rest ← behind? ':' rest
  let (_, rest) ← pair? 59 rest
  let rest ← behind? ':' rest
  let (_, rest) ← pair? 60 rest
  match rest with
  | '.' :: rest =>
      if (rest.head?.map Char.isDigit).getD false then some (rest.dropWhile Char.isDigit) else none
  | rest => some rest

/-- Whether a word is a distance from universal time. -/
def isOffset : List Char → Bool
  | [] => true
  | ['Z'] => true
  | ['z'] => true
  | sign :: rest =>
      (sign == '+' || sign == '-') &&
        ((pair? 23 rest).bind fun (_, rest) => (behind? ':' rest).bind (pair? 59)).any
          fun (_, rest) => rest.isEmpty

/-- Whether a word is a date, a time of day, or both. -/
def isTime (word : List Char) : Bool :=
  match date? word with
  | some [] => true
  | some (mark :: rest) =>
      (mark == 'T' || mark == 't' || mark == ' ') && ((clock? rest).map isOffset).getD false
  | none => clock? word == some []

def scalar? (word : List Char) : Option Value :=
  match word with
  | '+' :: rest => signed? false rest
  | '-' :: rest => signed? true rest
  | '0' :: 'x' :: rest => radix? 16 (fun c => (hexValue? c).isSome) rest
  | '0' :: 'o' :: rest => radix? 8 (fun c => '0' ≤ c && c ≤ '7') rest
  | '0' :: 'b' :: rest => radix? 2 (fun c => c == '0' || c == '1') rest
  | word =>
      if word = "true".toList then some (.boolean true)
      else if word = "false".toList then some (.boolean false)
      else if isTime word then some (.datetime (String.ofList word))
      else signed? false word

/-- A character of such a word. -/
def isWordChar (c : Char) : Bool := c.isAlphanum || c ∈ ['_', '+', '-', '.', ':']

/-- Reads a word. A space between a date and a time belongs to it. -/
def readScalar (s : List Char) : Reading Value :=
  let word := s.takeWhile isWordChar
  let rest := s.dropWhile isWordChar
  match rest with
  | ' ' :: more =>
      let time := more.takeWhile isWordChar
      if date? word = some [] && (time.head?.map Char.isDigit).getD false then
        (scalar? (word ++ ' ' :: time)).map (·, more.dropWhile isWordChar)
      else (scalar? word).map (·, rest)
  | _ => (scalar? word).map (·, rest)

end Publication.Toml
