import Publication.Text.Utf8

/-!
Printing: escapes in text, and formats into which arguments are put. What is printed is octets,
since an escape can stand for any of them.
-/

namespace Publication.Shell

open Publication.Text

/-- An octal digit. -/
def isOctal (c : Char) : Bool := '0' ≤ c && c ≤ '7'

def ofOctal (digits : List Char) : Nat :=
  digits.foldl (fun n c => n * 8 + (c.toNat - '0'.toNat)) 0

def octalDigits (text : List Char) : List Char := (text.take 3).takeWhile isOctal

/-- The character that a letter behind a backslash stands for. -/
def escapedChar? : Char → Option Char
  | '\\' => some '\\'
  | 'a' => some '\x07'
  | 'b' => some '\x08'
  | 'f' => some '\x0c'
  | 'n' => some '\n'
  | 'r' => some '\r'
  | 't' => some '\t'
  | 'v' => some '\x0b'
  | _ => none

/-- Text with escapes: the octets of it, and whether more is to be printed. An octal number is
written behind a zero if `zero` says so. The fuel bounds the number of characters. -/
def unescape (zero : Bool) : Nat → List Char → List UInt8 × Bool
  | 0, _ => ([], true)
  | _ + 1, [] => ([], true)
  | fuel + 1, '\\' :: c :: rest =>
      if zero && c = 'c' then ([], false)
      else
        let number :=
          if zero then (if c = '0' then octalDigits rest else []) else octalDigits (c :: rest)
        let isNumber := if zero then c = '0' else !number.isEmpty
        if isNumber then
          let behind := if zero then rest.drop number.length else (c :: rest).drop number.length
          let (more, goesOn) := unescape zero fuel behind
          (UInt8.ofNat (ofOctal number) :: more, goesOn)
        else
          let found := match escapedChar? c with
            | some d => [d]
            | none => ['\\', c]
          let (more, goesOn) := unescape zero fuel rest
          (utf8 (String.ofList found) ++ more, goesOn)
  | fuel + 1, c :: rest =>
      let (more, goesOn) := unescape zero fuel rest
      (utf8 c.toString ++ more, goesOn)

/-- The octets of a text with escapes. -/
def unescaped (text : List Char) : List UInt8 := (unescape false (text.length + 1) text).1

/-- Arguments between blanks, with escapes, and a line feed unless that is not wanted. -/
def echo (arguments : List String) : List UInt8 :=
  let (wantsFeed, shown) := match arguments with
    | "-n" :: rest => (false, rest)
    | _ => (true, arguments)
  let text := (String.intercalate " " shown).toList
  let (bytes, goesOn) := unescape true (text.length + 1) text
  bytes ++ if wantsFeed && goesOn then [10] else []

/-- A conversion in a format. -/
structure Conversion where
  toLeft : Bool
  zeros : Bool
  width : Nat
  precision : Option Nat
  kind : Char

def leadingNumber (text : List Char) : Option Nat × List Char :=
  ((String.ofList (text.takeWhile Char.isDigit)).toNat?, text.dropWhile Char.isDigit)

/-- The conversion behind a percent sign, and what is behind it. -/
def conversion? (text : List Char) : Option (Conversion × List Char) :=
  let flags := text.takeWhile fun c => c = '-' || c = '0'
  let (width, rest) := leadingNumber (text.drop flags.length)
  let (precision, rest) := match rest with
    | '.' :: rest => let (n, rest) := leadingNumber rest; (some (n.getD 0), rest)
    | rest => (none, rest)
  match rest with
  | kind :: rest =>
      some (⟨flags.contains '-', flags.contains '0', width.getD 0, precision, kind⟩, rest)
  | [] => none

/-- Octets filled up to a width. -/
def Conversion.fill (conversion : Conversion) (bytes : List UInt8) : List UInt8 :=
  let missing := conversion.width - bytes.length
  if conversion.toLeft then bytes ++ List.replicate missing 32
  else List.replicate missing (if conversion.zeros then 48 else 32) ++ bytes

def Conversion.print (conversion : Conversion) (argument : String) : List UInt8 :=
  conversion.fill (match conversion.kind with
    | 'd' | 'i' | 'u' => utf8 (toString (argument.toInt?.getD 0))
    | 'x' => utf8 (String.ofList (Nat.toDigits 16 (argument.toNat?.getD 0)))
    | 'o' => utf8 (String.ofList (Nat.toDigits 8 (argument.toNat?.getD 0)))
    | 'c' => utf8 (String.ofList (argument.toList.take 1))
    | 'b' => (unescape true (argument.length + 1) argument.toList).1
    | _ => match conversion.precision with
        | some n => (utf8 argument).take n
        | none => utf8 argument)

/-- A format with arguments put into it: the octets, the arguments left, and whether any was asked
for. -/
def format : Nat → List Char → List String → List UInt8 × List String × Bool
  | 0, _, arguments => ([], arguments, false)
  | _ + 1, [], arguments => ([], arguments, false)
  | fuel + 1, '%' :: '%' :: rest, arguments =>
      let (more, left, asked) := format fuel rest arguments
      (37 :: more, left, asked)
  | fuel + 1, '%' :: rest, arguments =>
      match conversion? rest with
      | some (conversion, rest) =>
          let (more, left, _) := format fuel rest (arguments.drop 1)
          (conversion.print (arguments.headD "") ++ more, left, true)
      | none => ([37], arguments, false)
  | fuel + 1, c :: rest, arguments =>
      let piece := if c = '\\' then
          let digits := octalDigits rest
          '\\' :: rest.take (if digits.isEmpty then 1 else digits.length)
        else [c]
      let (more, left, asked) := format fuel ((c :: rest).drop piece.length) arguments
      (unescaped piece ++ more, left, asked)

/-- A format used again and again until no argument is left. -/
def formatAll (text : List Char) : Nat → List String → List UInt8
  | 0, _ => []
  | fuel + 1, arguments =>
      let (bytes, left, asked) := format (text.length + 1) text arguments
      bytes ++ if asked && !left.isEmpty then formatAll text fuel left else []

/-- A format and its arguments printed. -/
def printf : List String → List UInt8
  | [] => []
  | text :: arguments => formatAll text.toList (arguments.length + 1) arguments

end Publication.Shell
