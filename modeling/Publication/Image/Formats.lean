import Publication.Text.Octets

/-!
The sizes of pictures in four formats that are only measured, never read: each is told by octets at
the beginning of the file.
-/

/-!
The size of a GIF picture. The file has to hold a whole picture: blocks of data, each as long as its
first octet says, up to an empty one.
-/

namespace Publication.Image.Gif

open Publication.Text

/-- What stands behind blocks of data and the empty block that ends them. -/
def skipBlocks : Nat → List UInt8 → Option (List UInt8)
  | 0, _ => none
  | _ + 1, [] => none
  | fuel + 1, size :: rest =>
      if size = 0 then some rest
      else (takeExactly? size.toNat rest).bind fun (_, rest) => skipBlocks fuel rest

/-- What stands behind the table of colours that some flags announce. -/
def skipColors (flags : Nat) (bytes : List UInt8) : Option (List UInt8) :=
  if 128 ≤ flags then (takeExactly? (3 * Nat.pow 2 (flags % 8 + 1)) bytes).map (·.2) else some bytes

/-- Whether a whole picture follows, perhaps behind extensions. -/
def hasPicture : Nat → List UInt8 → Bool
  | 0, _ => false
  | fuel + 1, bytes =>
      match bytes with
      | 0x21 :: _ :: rest =>
          match skipBlocks (rest.length + 1) rest with
          | some rest => hasPicture fuel rest
          | none => false
      | 0x2C :: rest =>
          match takeExactly? 9 rest with
          | some (place, rest) =>
              match skipColors ((place.getLast?.map UInt8.toNat).getD 0) rest with
              | some (codeSize :: rest) =>
                  0 < codeSize.toNat && codeSize.toNat ≤ 11
                    && (skipBlocks (rest.length + 1) rest).isSome
              | _ => false
          | none => false
      | _ => false

/-- The size of the picture that a file is. -/
def size? (bytes : List UInt8) : Option (Nat × Nat) := do
  let (start, rest) ← takeExactly? 13 bytes
  let flags := ((start[10]?).map UInt8.toNat).getD 0
  let rest ← skipColors flags rest
  if hasPicture (rest.length + 1) rest then
    some (littleEndian ((start.drop 6).take 2), littleEndian ((start.drop 8).take 2))
  else none

end Publication.Image.Gif

/-!
The size of a JPEG picture, which a segment before the picture's data tells.
-/

namespace Publication.Image.Jpeg

open Publication.Text

def tellsSize (marker : Nat) : Bool :=
  0xC0 ≤ marker && marker ≤ 0xCF && !(marker ∈ [0xC4, 0xC8, 0xCC])

def standsAlone (marker : Nat) : Bool := marker = 0x01 || (0xD0 ≤ marker && marker ≤ 0xD7)

/-- The size, given the one told so far, once the picture's data begins. -/
def scan : Nat → Option (Nat × Nat) → List UInt8 → Option (Nat × Nat)
  | 0, _, _ => none
  | fuel + 1, size, bytes =>
      match bytes with
      | 0xFF :: 0xFF :: rest => scan fuel size (0xFF :: rest)
      | 0xFF :: marker :: rest =>
          if standsAlone marker.toNat then scan fuel size rest
          else if marker.toNat = 0xDA then size
          else if marker.toNat = 0xD9 then none
          else do
            let length := bigEndian (rest.take 2)
            let (segment, rest) ← takeExactly? (max 2 length) rest
            if tellsSize marker.toNat then
              scan fuel (some (bigEndian ((segment.drop 5).take 2),
                bigEndian ((segment.drop 3).take 2))) rest
            else scan fuel size rest
      | _ => none

/-- The size of the picture that a file is. -/
def size? (bytes : List UInt8) : Option (Nat × Nat) := scan bytes.length none (bytes.drop 2)

end Publication.Image.Jpeg

/-!
The size of a TIFF picture, which entries of the file's first directory tell.
-/

namespace Publication.Image.Tiff

open Publication.Text

/-- The order of octets that the first two octets of a file tell. -/
def numberOf (bytes : List UInt8) : List UInt8 → Nat :=
  if bytes.head? = some 0x4D then bigEndian else littleEndian

/-- The values of a directory's entries by tag. An entry holds a number of two or four octets. -/
def entries (number : List UInt8 → Nat) : Nat → List UInt8 → Option (List (Nat × Nat))
  | 0, _ => some []
  | n + 1, bytes => do
      let (entry, rest) ← takeExactly? 12 bytes
      let value :=
        if number ((entry.drop 2).take 2) = 3 then number ((entry.drop 8).take 2)
        else number ((entry.drop 8).take 4)
      let more ← entries number n rest
      some ((number (entry.take 2), value) :: more)

def widthTag : Nat := 256

def heightTag : Nat := 257

def placeTag : Nat := 273

/-- The size of the picture that a file is. -/
def size? (bytes : List UInt8) : Option (Nat × Nat) := do
  let number := numberOf bytes
  let (start, _) ← takeExactly? 8 bytes
  let (count, rest) ← takeExactly? 2 (bytes.drop (number (start.drop 4)))
  let found ← entries number (number count) rest
  let width ← found.lookup widthTag
  let height ← found.lookup heightTag
  let place ← found.lookup placeTag
  if place < bytes.length then some (width, height) else none

end Publication.Image.Tiff

/-!
The size of a WebP picture, which the first chunk of the file tells in one of three ways.
-/

namespace Publication.Image.Webp

open Publication.Text

/-- The size that the data of a chunk with some name tells. -/
def sizeOf? (name data : List UInt8) : Option (Nat × Nat) :=
  if name = [0x56, 0x50, 0x38, 0x20] then
    if (data.drop 3).take 3 = [0x9D, 0x01, 0x2A] then
      some (littleEndian ((data.drop 6).take 2) % 16384,
        littleEndian ((data.drop 8).take 2) % 16384)
    else none
  else if name = [0x56, 0x50, 0x38, 0x4C] then
    if data.head? = some 0x2F then
      let bits := littleEndian ((data.drop 1).take 4)
      some (bits % 16384 + 1, bits / 16384 % 16384 + 1)
    else none
  else if name = [0x56, 0x50, 0x38, 0x58] then
    some (littleEndian ((data.drop 4).take 3) + 1, littleEndian ((data.drop 7).take 3) + 1)
  else none

/-- The size of the picture that a file is. -/
def size? (bytes : List UInt8) : Option (Nat × Nat) := do
  let (_, rest) ← takeExactly? 12 bytes
  let (name, rest) ← takeExactly? 4 rest
  let (length, rest) ← takeExactly? 4 rest
  let (data, _) ← takeExactly? (littleEndian length) rest
  if data.length < 10 && name ≠ [0x56, 0x50, 0x38, 0x4C] then none else sizeOf? name data

end Publication.Image.Webp
