/-!
Checksums of octets. CRC-32 is the remainder of the octets as a polynomial over two elements, and
Adler-32 the sum of the octets with the sum of the sums on the way.
-/

namespace Publication.Hash

/-- One step of the division. -/
def Crc32.shift (c : UInt32) : UInt32 :=
  if c % 2 = 1 then (c >>> 1) ^^^ 0xEDB88320 else c >>> 1

/-- Takes an octet into the remainder. -/
def Crc32.add (c : UInt32) (b : UInt8) : UInt32 :=
  Nat.repeat Crc32.shift 8 (c ^^^ b.toUInt32)

/-- The checksum CRC-32 of octets. -/
def crc32 (bytes : List UInt8) : UInt32 := bytes.foldl Crc32.add 0xFFFFFFFF ^^^ 0xFFFFFFFF

/-- The modulus of the sums. -/
def Adler32.modulus : Nat := 65521

/-- Takes an octet into both sums. -/
def Adler32.add (sums : Nat × Nat) (b : UInt8) : Nat × Nat :=
  let a := (sums.1 + b.toNat) % modulus
  (a, (sums.2 + a) % modulus)

/-- The checksum Adler-32 of octets. -/
def adler32 (bytes : List UInt8) : Nat :=
  let (a, b) := bytes.foldl Adler32.add (1, 0)
  b * 65536 + a

end Publication.Hash
