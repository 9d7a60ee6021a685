import Publication.Image.Png.Row
import Publication.Image.Png.Text

/-!
PNG pictures: reading what stands before the pixels, reading the pixels, and writing a picture.
-/

namespace Publication.Image.Png

open Publication.Text

/-- What a file tells before its pixels. -/
structure Head where
  header : Header
  palette : Option (List UInt8) := none
  transparency : Option (List UInt8) := none
  /-- Keywords and texts in order. -/
  texts : List (String × String) := []
  wideTexts : List WideText := []
deriving Repr, DecidableEq

/-- The transparency that the data of a chunk is. Samples of less than sixteen bits are kept as one
octet each. -/
def transparencyOf? (head : Head) (data : List UInt8) : Option (List UInt8) :=
  match head.header.color with
  | .grayscale =>
      match data with
      | _ :: low :: _ => some (if head.header.depth < 16 then [low] else data)
      | _ => none
  | .rgb =>
      match data with
      | _ :: r :: _ :: g :: _ :: b :: _ => some (if head.header.depth < 16 then [r, g, b] else data)
      | _ => none
  | .indexed => if head.palette.isSome then some data else none
  | .grayscaleAlpha => none
  | .rgba => none

/-- Takes a chunk into what is known. Chunks of other names do not count. -/
def Head.add? (head : Head) (chunk : Chunk) : Option Head :=
  if chunk.name = Chunk.header then none
  else if chunk.name = Chunk.palette then
    if head.palette.isSome then none else some { head with palette := some chunk.data }
  else if chunk.name = Chunk.transparency then
    if head.transparency.isSome then none
    else (transparencyOf? head chunk.data).map fun data => { head with transparency := some data }
  else if chunk.name = Chunk.text then
    (readText? chunk.data).map fun entry => { head with texts := head.texts ++ [entry] }
  else if chunk.name = Chunk.packedText then
    if isPackedText chunk.data then some head else none
  else if chunk.name = Chunk.wideText then
    (readWideText? chunk.data).map fun entry => { head with wideTexts := head.wideTexts ++ [entry] }
  else some head

/-- Reads chunks up to the first one of pixels, which is left. Chunks with a wrong checksum are
passed over if the picture can be shown without them. -/
def readChunks : Nat → Head → List UInt8 → Option (Head × List UInt8)
  | 0, _, _ => none
  | fuel + 1, head, bytes => do
      let (_, name, _) ← chunkStart? bytes
      if name = Chunk.pixels then some (head, bytes)
      else if name = Chunk.last then none
      else
        let (framed, rest) ← chunk? bytes
        if framed.intact then
          let head ← head.add? framed.chunk
          readChunks fuel head rest
        else if Chunk.isCritical name then none
        else readChunks fuel head rest

/-- Reads a file up to its pixels. -/
def readHead? (bytes : List UInt8) : Option (Head × List UInt8) :=
  match strip? signature bytes with
  | none => none
  | some rest => do
      let (framed, rest) ← chunk? rest
      if framed.chunk.name = Chunk.header && framed.intact then
        let header ← Header.ofData? framed.chunk.data
        readChunks (rest.length + 1) { header } rest
      else none
where
  /-- What stands behind the octets that a file begins with. -/
  strip? : List UInt8 → List UInt8 → Option (List UInt8)
    | [], bytes => some bytes
    | _ :: _, [] => none
    | a :: start, b :: bytes => if a = b then strip? start bytes else none

/-- Reads the data of the chunks of pixels. The start of another chunk has to follow them. -/
def readData : Nat → List UInt8 → Option (List UInt8)
  | 0, _ => none
  | fuel + 1, bytes => do
      let (_, name, _) ← chunkStart? bytes
      if name = Chunk.pixels then
        let (framed, rest) ← chunk? bytes
        if framed.intact then
          let more ← readData fuel rest
          some (framed.chunk.data ++ more)
        else none
      else some []

/-- A picture: what is told before its pixels, and the octets of its rows. -/
structure Picture where
  head : Head
  pixels : List UInt8
deriving Repr, DecidableEq

def read? (bytes : List UInt8) : Option Picture := do
  let (head, rest) ← readHead? bytes
  let data ← readData (rest.length + 1) rest
  let unpacked ← Deflate.unpack? data
  let rows ← picture? head.header unpacked.bytes
  some ⟨head, rows.flatten⟩

/-- The chunk of size and format. -/
def headerChunk (header : Header) : Chunk := ⟨Chunk.header, header.data⟩

/-- The pixels of a picture that is not interlaced as one chunk. -/
def pixelChunk (header : Header) (pixels : List UInt8) : Chunk :=
  ⟨Chunk.pixels, Deflate.pack (plainRows (header.rowLength header.width) header.height pixels)⟩

def lastChunk : Chunk := ⟨Chunk.last, []⟩

def optionalChunk (name : List UInt8) (data : Option (List UInt8)) : List Chunk :=
  (data.map fun data => (⟨name, data⟩ : Chunk)).toList

/-- The file of a picture, without its international texts. Nothing is written for indexed pixels
without colours, and for texts that have no octets for their characters. -/
def write? (picture : Picture) : Option (List UInt8) :=
  let head := picture.head
  let header := { head.header with interlaced := false }
  if header.color = .indexed && head.palette.isNone then none
  else
    (head.texts.mapM textChunk?).map fun texts =>
      fileOf ([headerChunk header] ++ optionalChunk Chunk.palette head.palette
        ++ optionalChunk Chunk.transparency head.transparency ++ texts
        ++ (pixelChunk header picture.pixels).cut ++ [lastChunk])

/-- A picture of one colour without anything else. -/
def blank (width height : Nat) (color : Color) (depth : Nat) : Picture :=
  let header : Header := { width, height, color, depth }
  ⟨{ header }, List.replicate (height * header.rowLength width) 0⟩

end Publication.Image.Png
