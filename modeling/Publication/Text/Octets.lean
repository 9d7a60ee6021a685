/-!
Octets: numbers as octets, with the most significant one first, and octets in hexadecimal, two
digits each in lower case.
-/

namespace Publication.Text

/-- The number that octets stand for. -/
def bigEndian (bytes : List UInt8) : Nat := bytes.foldl (fun n b => n * 256 + b.toNat) 0

/-- The number that octets stand for with the least significant one first. -/
def littleEndian (bytes : List UInt8) : Nat := bigEndian bytes.reverse

def octets : (count : Nat) → Nat → List UInt8
  | 0, _ => []
  | count + 1, n => octets count (n / 256) ++ [UInt8.ofNat (n % 256)]

/-- The first octets of a list and the rest, if there are as many. -/
def takeExactly? (count : Nat) (bytes : List UInt8) : Option (List UInt8 × List UInt8) :=
  let found := bytes.take count
  if found.length = count then some (found, bytes.drop count) else none

/-- The digit of a number below sixteen. -/
def hexDigit (n : Nat) : Char := "0123456789abcdef".toList.getD n '0'

/-- Octets in hexadecimal. -/
def hex (bytes : List UInt8) : String :=
  String.ofList (bytes.flatMap fun b => [hexDigit (b.toNat / 16), hexDigit (b.toNat % 16)])

/-- The number a hexadecimal digit stands for, in either case. -/
def hexValue? (c : Char) : Option Nat :=
  if c.isDigit then some (c.toNat - 0x30)
  else if 'a' ≤ c && c ≤ 'f' then some (c.toNat - 0x57)
  else if 'A' ≤ c && c ≤ 'F' then some (c.toNat - 0x37)
  else none

end Publication.Text
