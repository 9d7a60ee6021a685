import Publication.Deflate.Inflate
import Publication.Hash.Checksum

/-!
Packed data in the zlib format: two octets of header, blocks, and a checksum.
-/

namespace Publication.Deflate

open Publication.Text

/-- Data that has been unpacked, and the checksum that stands behind it. -/
structure Unpacked where
  bytes : List UInt8
  checksum : Nat
deriving Repr, DecidableEq

/-- Whether two octets are the header of packed data without a dictionary. -/
def isHeader (first second : Nat) : Bool :=
  first % 16 == 8 && first / 16 ≤ 7 && second / 32 % 2 == 0 && (first * 256 + second) % 31 == 0

/-- Unpacks data. What stands behind the checksum does not count. -/
def unpack? (data : List UInt8) : Option Unpacked :=
  match data with
  | first :: second :: rest =>
      if !isHeader first.toNat second.toNat then none
      else do
        let (out, bits) ← readBlocks (8 * rest.length + 1) #[] ⟨rest, 0⟩
        let (checksum, _) ← takeExactly? 4 bits.aligned
        some ⟨out.toList, bigEndian checksum⟩
  | _ => none

/-- The octets of packed data whose checksum is right. -/
def unpackChecked? (data : List UInt8) : Option (List UInt8) :=
  match unpack? data with
  | some unpacked =>
      if unpacked.checksum = Hash.adler32 unpacked.bytes then some unpacked.bytes else none
  | none => none

/-- The most octets that a stored block holds. -/
def blockLimit : Nat := 65535

/-- A stored block. -/
def storedBlock (last : Bool) (bytes : List UInt8) : List UInt8 :=
  (if last then 1 else 0) :: (octets 2 bytes.length).reverse
    ++ (octets 2 (65535 - bytes.length)).reverse ++ bytes

/-- Octets in stored blocks, of which there is at least one. -/
def storedBlocks : Nat → List UInt8 → List UInt8
  | 0, bytes => storedBlock true bytes
  | more + 1, bytes =>
      storedBlock false (bytes.take blockLimit) ++ storedBlocks more (bytes.drop blockLimit)

/-- Octets in the format without being made smaller. -/
def pack (bytes : List UInt8) : List UInt8 :=
  0x78 :: 0x01 :: storedBlocks (bytes.length / blockLimit) bytes
    ++ octets 4 (Hash.adler32 bytes)

end Publication.Deflate
