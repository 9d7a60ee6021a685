import Publication.Hash.Checksum
import Publication.Text.Octets

/-!
PNG files as chunks: a length, a name of four letters, data, and a checksum of name and data.
-/

namespace Publication.Image.Png

open Publication.Text

/-- The octets that a file begins with. -/
def signature : List UInt8 := [0x89, 0x50, 0x4E, 0x47, 0x0D, 0x0A, 0x1A, 0x0A]

structure Chunk where
  name : List UInt8
  data : List UInt8
deriving Repr, DecidableEq

/-- The octets of a name. -/
def nameOf (letters : String) : List UInt8 := letters.toList.map fun c => UInt8.ofNat c.toNat

namespace Chunk

/-- The name of the first chunk: size and format. -/
def header : List UInt8 := nameOf "IHDR"

/-- The name of the chunk of colours. -/
def palette : List UInt8 := nameOf "PLTE"

def transparency : List UInt8 := nameOf "tRNS"

/-- The name of chunks of packed pixels. -/
def pixels : List UInt8 := nameOf "IDAT"

def last : List UInt8 := nameOf "IEND"

def text : List UInt8 := nameOf "tEXt"

def packedText : List UInt8 := nameOf "zTXt"

def wideText : List UInt8 := nameOf "iTXt"

/-- Whether a picture cannot be shown without the chunks of a name, which a capital letter at its
start tells. -/
def isCritical (name : List UInt8) : Bool :=
  (name.head?.map fun b => b.toNat / 32 % 2 == 0).getD false

def checksum (chunk : Chunk) : Nat := (Hash.crc32 (chunk.name ++ chunk.data)).toNat

def bytes (chunk : Chunk) : List UInt8 :=
  octets 4 chunk.data.length ++ chunk.name ++ chunk.data ++ octets 4 chunk.checksum

/-- The most octets of pixels that are written into one chunk. -/
def dataLimit : Nat := 2147483647

/-- Data in a first piece and so many more. -/
def cutData : Nat → List UInt8 → List (List UInt8)
  | 0, data => [data]
  | more + 1, data => data.take dataLimit :: cutData more (data.drop dataLimit)

/-- The chunks that a chunk is written as, none of them longer than the limit. -/
def cut (chunk : Chunk) : List Chunk :=
  (cutData ((chunk.data.length - 1) / dataLimit) chunk.data).map fun data => ⟨chunk.name, data⟩

end Chunk

def fileOf (chunks : List Chunk) : List UInt8 := signature ++ chunks.flatMap Chunk.bytes

/-- Reads the length and the name of a chunk. -/
def chunkStart? (bytes : List UInt8) : Option (Nat × List UInt8 × List UInt8) := do
  let (length, rest) ← takeExactly? 4 bytes
  let (name, rest) ← takeExactly? 4 rest
  some (bigEndian length, name, rest)

/-- A chunk as it stands in a file: whether its checksum is right is left open. -/
structure Framed where
  chunk : Chunk
  intact : Bool
deriving Repr, DecidableEq

/-- Reads a whole chunk. -/
def chunk? (bytes : List UInt8) : Option (Framed × List UInt8) := do
  let (length, name, rest) ← chunkStart? bytes
  let (data, rest) ← takeExactly? length rest
  let (sum, rest) ← takeExactly? 4 rest
  let chunk : Chunk := ⟨name, data⟩
  some (⟨chunk, bigEndian sum == chunk.checksum⟩, rest)

end Publication.Image.Png
