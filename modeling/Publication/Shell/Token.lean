import Publication.Shell.Syntax

/-!
The words and operators of a script. Fuel bounds the number of characters that are read.
-/

namespace Publication.Shell

/-- A word or an operator. -/
inductive Token where
  | word (line : Nat) (pieces : Word)
  | redirection (stream : Option Nat) (operator : String)
  | operator (text : String)
deriving Repr, DecidableEq

/-- A character that a name may begin with. -/
def isNameStart (c : Char) : Bool := c.isAlpha || c == '_'

def isNameChar (c : Char) : Bool := isNameStart c || c.isDigit

def isName : List Char → Bool
  | c :: rest => isNameStart c && rest.all isNameChar
  | [] => false

/-- A parameter with a sign for its name. -/
def isSign (c : Char) : Bool := c ∈ ['#', '?', '$', '!', '@', '*', '-']

def endsWord (c : Char) : Bool := c ∈ [' ', '\t', '\n', ';', '&', '|', '(', ')', '<', '>']

/-- The text up to the bracket that closes, and what is behind it. Brackets in quotes do not
count. -/
def enclosed (opening closing : Char) :
    Nat → Option Char → List Char → Option (List Char × List Char)
  | _, _, [] => none
  | depth, some q, c :: rest =>
      (enclosed opening closing depth (if c = q then none else some q) rest).map
        fun (inner, rest) => (c :: inner, rest)
  | depth, none, c :: rest =>
      if c = closing && depth = 0 then some ([], rest)
      else
        let depth :=
          if c = opening then depth + 1 else if c = closing then depth - 1 else depth
        let quote := if c = '\'' || c = '"' then some c else none
        (enclosed opening closing depth quote rest).map fun (inner, rest) => (c :: inner, rest)

/-- What is taken of a parameter, as it is written behind the name. -/
def selection? : List Char → Option Selection
  | [] => some .whole
  | ':' :: '-' :: word => some (.fallback true (String.ofList word))
  | '-' :: word => some (.fallback false (String.ofList word))
  | ':' :: '+' :: word => some (.instead true (String.ofList word))
  | '+' :: word => some (.instead false (String.ofList word))
  | '#' :: '#' :: pattern => some (.withoutStart true (String.ofList pattern))
  | '#' :: pattern => some (.withoutStart false (String.ofList pattern))
  | '%' :: '%' :: pattern => some (.withoutEnd true (String.ofList pattern))
  | '%' :: pattern => some (.withoutEnd false (String.ofList pattern))
  | _ => none

/-- The name of a parameter at the beginning of a text, and what is behind it. -/
def parameterName? : List Char → Option (String × List Char)
  | [] => none
  | c :: rest =>
      if isNameStart c then
        some (String.ofList (c :: rest.takeWhile isNameChar), rest.dropWhile isNameChar)
      else if c.isDigit || isSign c then some (c.toString, rest)
      else none

/-- The parameter that stands between braces. -/
def braced? (quoted : Bool) (inner : List Char) : Option Piece :=
  match inner with
  | '#' :: c :: rest =>
      (parameterName? (c :: rest)).bind fun (name, rest) =>
        if rest.isEmpty then some (.parameter name .length quoted) else none
  | _ =>
      let digits := inner.takeWhile Char.isDigit
      let split := if digits.isEmpty then parameterName? inner
        else some (String.ofList digits, inner.dropWhile Char.isDigit)
      split.bind fun (name, rest) =>
        (selection? rest).map fun selection => .parameter name selection quoted

/-- The piece behind a dollar sign, and what is behind it. -/
def dollar? (quoted : Bool) : List Char → Option (Piece × List Char)
  | '(' :: '(' :: rest =>
      match enclosed '(' ')' 0 none rest with
      | some (inner, ')' :: rest) => some (.arithmetic (String.ofList inner) quoted, rest)
      | _ => none
  | '(' :: rest =>
      (enclosed '(' ')' 0 none rest).map fun (inner, rest) =>
        (.printed (String.ofList inner) quoted, rest)
  | '{' :: rest =>
      (enclosed '{' '}' 0 none rest).bind fun (inner, rest) =>
        (braced? quoted inner).map fun piece => (piece, rest)
  | text =>
      (parameterName? text).map fun (name, rest) => (.parameter name .whole quoted, rest)

/-- The literal that has been read backwards, if there is anything of it. -/
def literal (quoted : Bool) (reversed : List Char) : Word :=
  if reversed.isEmpty then [] else [.literal (String.ofList reversed.reverse) quoted]

/-- A character that a backslash guards between double quotes. -/
def isGuarded (c : Char) : Bool := c ∈ ['$', '\x60', '"', '\\']

/-- The pieces up to the closing double quote, given what was read of a literal backwards. -/
def doubleQuoted : Nat → List Char → List Char → Option (Word × List Char)
  | _ + 1, read, '"' :: rest => some (literal true read, rest)
  | fuel + 1, read, '\\' :: '\n' :: rest => doubleQuoted fuel read rest
  | fuel + 1, read, '\\' :: c :: rest =>
      doubleQuoted fuel (if isGuarded c then c :: read else c :: '\\' :: read) rest
  | fuel + 1, read, '$' :: rest =>
      match dollar? true rest with
      | some (piece, rest) =>
          (doubleQuoted fuel [] rest).map fun (pieces, rest) =>
            (literal true read ++ piece :: pieces, rest)
      | none => doubleQuoted fuel ('$' :: read) rest
  | fuel + 1, read, '\x60' :: rest =>
      let script := String.ofList (rest.takeWhile (· ≠ '\x60'))
      (doubleQuoted fuel [] ((rest.dropWhile (· ≠ '\x60')).drop 1)).map fun (pieces, rest) =>
        (literal true read ++ .printed script true :: pieces, rest)
  | fuel + 1, read, c :: rest => doubleQuoted fuel (c :: read) rest
  | _, _, _ => none

/-- The pieces of a word, given what was read of a literal backwards, and what is behind it. -/
def wordPieces : Nat → List Char → List Char → Option (Word × List Char)
  | _ + 1, read, [] => some (literal false read, [])
  | fuel + 1, read, '\'' :: rest =>
      match rest.dropWhile (· ≠ '\'') with
      | _ :: behind =>
          let inner := String.ofList (rest.takeWhile (· ≠ '\''))
          (wordPieces fuel [] behind).map fun (pieces, rest) =>
            (literal false read ++ .literal inner true :: pieces, rest)
      | [] => none
  | fuel + 1, read, '"' :: rest =>
      (doubleQuoted (rest.length + 1) [] rest).bind fun (inner, behind) =>
        (wordPieces fuel [] behind).map fun (pieces, rest) =>
          let inner := if inner.isEmpty then [.literal "" true] else inner
          (literal false read ++ inner ++ pieces, rest)
  | fuel + 1, read, '\\' :: '\n' :: rest => wordPieces fuel read rest
  | fuel + 1, read, '\\' :: c :: rest =>
      (wordPieces fuel [] rest).map fun (pieces, rest) =>
        (literal false read ++ .literal c.toString true :: pieces, rest)
  | fuel + 1, read, '$' :: rest =>
      match dollar? false rest with
      | some (piece, rest) =>
          (wordPieces fuel [] rest).map fun (pieces, rest) =>
            (literal false read ++ piece :: pieces, rest)
      | none => wordPieces fuel ('$' :: read) rest
  | fuel + 1, read, '\x60' :: rest =>
      let script := String.ofList (rest.takeWhile (· ≠ '\x60'))
      (wordPieces fuel [] ((rest.dropWhile (· ≠ '\x60')).drop 1)).map fun (pieces, rest) =>
        (literal false read ++ .printed script false :: pieces, rest)
  | fuel + 1, read, c :: rest =>
      if endsWord c then some (literal false read, c :: rest)
      else wordPieces fuel (c :: read) rest
  | 0, _, _ => none

/-- The redirection operator at the beginning of a text. -/
def redirection? : List Char → Option (String × List Char)
  | '>' :: '>' :: rest => some (">>", rest)
  | '>' :: '&' :: rest => some (">&", rest)
  | '>' :: '|' :: rest => some (">", rest)
  | '>' :: rest => some (">", rest)
  | '<' :: '<' :: _ => none
  | '<' :: '&' :: rest => some (">&", rest)
  | '<' :: rest => some ("<", rest)
  | _ => none

def operator? : List Char → Option (String × List Char)
  | '\n' :: rest => some ("\n", rest)
  | ';' :: ';' :: rest => some (";;", rest)
  | ';' :: rest => some (";", rest)
  | '&' :: '&' :: rest => some ("&&", rest)
  | '&' :: rest => some ("&", rest)
  | '|' :: '|' :: rest => some ("||", rest)
  | '|' :: rest => some ("|", rest)
  | '(' :: rest => some ("(", rest)
  | ')' :: rest => some (")", rest)
  | _ => none

/-- The number that a word consists of, if a redirection may follow it. -/
def streamNumber? : Word → Option Nat
  | [.literal text false] => if text.length = 1 then text.toNat? else none
  | _ => none

/-- The tokens of a text, given the number of line breaks in the whole script. -/
def tokensFrom (breaks : Nat) : Nat → List Char → Option (List Token)
  | 0, _ => none
  | _ + 1, [] => some []
  | fuel + 1, c :: rest =>
      if c = ' ' || c = '\t' then tokensFrom breaks fuel rest
      else if c = '\\' && rest.head? = some '\n' then tokensFrom breaks fuel (rest.drop 1)
      else if c = '#' then tokensFrom breaks fuel (rest.dropWhile (· ≠ '\n'))
      else
        match operator? (c :: rest) with
        | some (text, rest) => (tokensFrom breaks fuel rest).map (.operator text :: ·)
        | none =>
            match redirection? (c :: rest) with
            | some (operator, rest) =>
                (tokensFrom breaks fuel rest).map (.redirection none operator :: ·)
            | none =>
                (wordPieces (rest.length + 2) [] (c :: rest)).bind fun (pieces, behind) =>
                  match streamNumber? pieces, redirection? behind with
                  | some n, some (operator, behind) =>
                      (tokensFrom breaks fuel behind).map (.redirection (some n) operator :: ·)
                  | _, _ =>
                      let line := breaks - (c :: rest).count '\n' + 1
                      (tokensFrom breaks fuel behind).map (.word line pieces :: ·)

def tokens? (script : List Char) : Option (List Token) :=
  tokensFrom (script.count '\n') (script.length + 1) script

end Publication.Shell
