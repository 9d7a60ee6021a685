import Publication.Text.Invisible
import Publication.Text.Octets

/-!
Parts of messages: counts with their nouns, and text in double quotes, in which quotes and
backslashes stand behind a backslash and characters that cannot be seen are given by name or number.
-/

namespace Publication.Text

/-- A count with its noun, which is `one` for a single thing. -/
def counted (count : Nat) (one many : String) : String :=
  toString count ++ " " ++ if count = 1 then one else many

/-- A number in hexadecimal. -/
def hexNumber (n : Nat) : List Char := Nat.toDigits 16 n

def shown (c : Char) : List Char :=
  if c = '"' then ['\\', '"']
  else if c = '\\' then ['\\', '\\']
  else if c = '\n' then ['\\', 'n']
  else if c = '\r' then ['\\', 'r']
  else if c = '\t' then ['\\', 't']
  else if c.toNat = 0 then ['\\', '0']
  else if isInvisible c then ['\\', 'u', '{'] ++ hexNumber c.toNat ++ ['}']
  else [c]

def quoted (text : String) : String :=
  String.ofList ('"' :: text.toList.flatMap shown ++ ['"'])

end Publication.Text
