import Publication.Image.Formats
import Publication.Image.Png
import Publication.Image.Thumbnail
import Publication.Number.Binary64

/-!
The size of a picture in any of five formats, which the first octets of a file tell apart, and the
size that it has when it is fitted into a square.
-/

namespace Publication.Image

open Publication.Number

/-- The size of a PNG picture, all of which has to be readable. -/
def pngSize? (bytes : List UInt8) : Option (Nat × Nat) :=
  (Png.read? bytes).bind fun picture =>
    let header := picture.head.header
    if header.color = .indexed && picture.head.palette.isNone then none
    else some (header.width, header.height)

def beginsWith (start bytes : List UInt8) : Bool := start.isPrefixOf bytes

/-- The size of the picture that a file is. -/
def size? (bytes : List UInt8) : Option (Nat × Nat) :=
  let found :=
    if beginsWith Png.signature bytes then pngSize? bytes
    else if beginsWith [0xFF, 0xD8, 0xFF] bytes then Jpeg.size? bytes
    else if beginsWith (Png.nameOf "GIF87a") bytes || beginsWith (Png.nameOf "GIF89a") bytes then
      Gif.size? bytes
    else if beginsWith (Png.nameOf "RIFF") bytes && beginsWith (Png.nameOf "WEBP") (bytes.drop 8)
    then Webp.size? bytes
    else if beginsWith [0x49, 0x49, 0x2A, 0] bytes || beginsWith [0x4D, 0x4D, 0, 0x2A] bytes then
      Tiff.size? bytes
    else none
  found.filter fun (width, height) => 0 < width && 0 < height

/-- One number divided by another one, rounded to a number of the format. -/
def ratio (n d : Nat) : Magnitude := (nearest? n d).getD default

def isLess (a b : Magnitude) : Bool :=
  let (p, q) := a.quotient
  let (r, s) := b.quotient
  p * s < r * q

/-- A length times a ratio, rounded to a number of the format, then to the nearest integer, up where
two are as near, and to one at least. -/
def scaledLength (length : Nat) (scale : Magnitude) : Nat :=
  let (top, bottom) := scale.quotient
  let (p, q) := (ratio (length * top) bottom).quotient
  max 1 ((2 * p + q) / (2 * q))

/-- The size of a picture that is fitted into a square with its shape kept. Small pictures grow. -/
def fitted (edge : Nat) (size : Nat × Nat) : Nat × Nat :=
  let across := ratio edge size.1
  let down := ratio edge size.2
  let scale := if isLess down across then down else across
  (scaledLength size.1 scale, scaledLength size.2 scale)

end Publication.Image

namespace Publication.StandIns

/-- Blank pictures of the right size in place of pictures that were made smaller. -/
scoped instance blank : Image.Scaler where
  scaled? image edge :=
    (Image.size? image).bind fun size =>
      let (width, height) := Image.fitted edge size
      Image.Png.write? (Image.Png.blank width height .grayscale 1)

end Publication.StandIns
