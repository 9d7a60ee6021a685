import Publication.Text.Octets

/-!
Writing JSON on indented lines, with each item and each field on a line of its own.
-/

namespace Publication.Json

open Publication.Text

/-- A value to be written. -/
inductive Value where
  | null
  | boolean (value : Bool)
  | number (value : Nat)
  | string (text : String)
  | array (items : List Value)
  | object (fields : List (String × Value))
deriving Repr, Inhabited

/-- A character inside quotes. Only quotes, backslashes and control characters are changed. -/
def escaped (c : Char) : List Char :=
  if c = '"' then ['\\', '"']
  else if c = '\\' then ['\\', '\\']
  else if c = '\n' then ['\\', 'n']
  else if c = '\r' then ['\\', 'r']
  else if c = '\t' then ['\\', 't']
  else if c.toNat = 8 then ['\\', 'b']
  else if c.toNat = 12 then ['\\', 'f']
  else if c.toNat < 0x20 then
    ['\\', 'u', '0', '0', hexDigit (c.toNat / 16), hexDigit (c.toNat % 16)]
  else [c]

def quoted (text : String) : List Char := '"' :: text.toList.flatMap escaped ++ ['"']

/-- The beginning of a line at a depth. -/
def indent (depth : Nat) : List Char := '\n' :: List.replicate (2 * depth) ' '

mutual

/-- A value inside others at a depth. -/
def write (depth : Nat) : Value → List Char
  | .null => ['n', 'u', 'l', 'l']
  | .boolean true => ['t', 'r', 'u', 'e']
  | .boolean false => ['f', 'a', 'l', 's', 'e']
  | .number n => Nat.toDigits 10 n
  | .string text => quoted text
  | .array [] => ['[', ']']
  | .array (item :: rest) =>
      '[' :: indent (depth + 1) ++ write (depth + 1) item ++ writeItems (depth + 1) rest
        ++ indent depth ++ [']']
  | .object [] => ['{', '}']
  | .object ((key, value) :: rest) =>
      '{' :: indent (depth + 1) ++ quoted key ++ [':', ' '] ++ write (depth + 1) value
        ++ writeFields (depth + 1) rest ++ indent depth ++ ['}']

/-- Further items of an array, each behind a comma. -/
def writeItems (depth : Nat) : List Value → List Char
  | [] => []
  | item :: rest => ',' :: indent depth ++ write depth item ++ writeItems depth rest

/-- Further fields of an object, each behind a comma. -/
def writeFields (depth : Nat) : List (String × Value) → List Char
  | [] => []
  | (key, value) :: rest =>
      ',' :: indent depth ++ quoted key ++ [':', ' '] ++ write depth value
        ++ writeFields depth rest

end

def pretty (value : Value) : String := String.ofList (write 0 value)

end Publication.Json
