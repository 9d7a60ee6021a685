import Publication.Image.Png.Chunk

/-!
The size and format of a PNG picture, and how many octets its rows take.
-/

namespace Publication.Image.Png

open Publication.Text

/-- What the samples of a pixel mean. -/
inductive Color where
  | grayscale
  | rgb
  | indexed
  | grayscaleAlpha
  | rgba
deriving Repr, DecidableEq, Inhabited

namespace Color

/-- The number that stands for a colour type. -/
def code : Color → Nat
  | .grayscale => 0
  | .rgb => 2
  | .indexed => 3
  | .grayscaleAlpha => 4
  | .rgba => 6

/-- The colour type that a number stands for. -/
def ofCode? : Nat → Option Color
  | 0 => some .grayscale
  | 2 => some .rgb
  | 3 => some .indexed
  | 4 => some .grayscaleAlpha
  | 6 => some .rgba
  | _ => none

def samples : Color → Nat
  | .grayscale => 1
  | .rgb => 3
  | .indexed => 1
  | .grayscaleAlpha => 2
  | .rgba => 4

/-- The sizes in bits that the samples may have. -/
def depths : Color → List Nat
  | .grayscale => [1, 2, 4, 8, 16]
  | .rgb => [8, 16]
  | .indexed => [1, 2, 4, 8]
  | .grayscaleAlpha => [8, 16]
  | .rgba => [8, 16]

end Color

/-- The size and format of a picture. -/
structure Header where
  width : Nat
  height : Nat
  color : Color
  /-- The size of a sample in bits. -/
  depth : Nat
  /-- Whether the pixels are stored in seven passes. -/
  interlaced : Bool := false
deriving Repr, DecidableEq, Inhabited

namespace Header

def pixelBits (header : Header) : Nat := header.color.samples * header.depth

/-- The distance in octets between a sample and the same one of the pixel before. -/
def pixelStep (header : Header) : Nat := max 1 (header.pixelBits / 8)

/-- The number of octets of a row of pixels. -/
def rowLength (header : Header) (width : Nat) : Nat := (width * header.pixelBits + 7) / 8

/-- The data of the chunk. -/
def data (header : Header) : List UInt8 :=
  octets 4 header.width ++ octets 4 header.height
    ++ [UInt8.ofNat header.depth, UInt8.ofNat header.color.code, 0, 0,
      if header.interlaced then 1 else 0]

/-- The header that the data of a chunk is. -/
def ofData? (data : List UInt8) : Option Header :=
  match data.drop 8 with
  | depth :: code :: 0 :: 0 :: interlaced :: _ =>
      (Color.ofCode? code.toNat).bind fun color =>
        let width := bigEndian (data.take 4)
        let height := bigEndian ((data.drop 4).take 4)
        if width = 0 || height = 0 || 1 < interlaced.toNat then none
        else if depth.toNat ∈ color.depths then
          some ⟨width, height, color, depth.toNat, interlaced.toNat == 1⟩
        else none
  | _ => none

end Header
end Publication.Image.Png
