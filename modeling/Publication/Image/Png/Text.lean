import Publication.Deflate.Zlib
import Publication.Image.Png.Chunk
import Publication.Text.Utf8

/-!
Texts inside PNG files: a keyword and a text, each character an octet; and international texts,
which are in UTF-8 and may be packed.
-/

namespace Publication.Image.Png

open Publication.Text

/-- The text whose characters octets are. -/
def latin1 (bytes : List UInt8) : String := String.ofList (bytes.map fun b => Char.ofNat b.toNat)

def latin1Octet? (c : Char) : Option UInt8 :=
  if c.toNat < 256 then some (UInt8.ofNat c.toNat) else none

/-- The octets that are the characters of a text, if it has no others. -/
def toLatin1? (text : String) : Option (List UInt8) := text.toList.mapM latin1Octet?

/-- The longest keyword. -/
def keywordLimit : Nat := 79

/-- A keyword that is there and not too long. -/
def isKeyword (bytes : List UInt8) : Bool := !bytes.isEmpty && bytes.length ≤ keywordLimit

/-- Cuts octets at the first zero. -/
def cutAtZero? : List UInt8 → Option (List UInt8 × List UInt8)
  | [] => none
  | b :: rest =>
      if b = 0 then some ([], rest)
      else (cutAtZero? rest).map fun (found, rest) => (b :: found, rest)

/-- The chunk of a keyword and a text, if they can be written. -/
def textChunk? (entry : String × String) : Option Chunk := do
  let keyword ← toLatin1? entry.1
  if isKeyword keyword then
    let text ← toLatin1? entry.2
    some ⟨Chunk.text, keyword ++ 0 :: text⟩
  else none

/-- The keyword and the text of a chunk. -/
def readText? (data : List UInt8) : Option (String × String) :=
  (cutAtZero? data).bind fun (keyword, text) =>
    if isKeyword keyword then some (latin1 keyword, latin1 text) else none

/-- Whether the data of a chunk is a packed text. The text itself is not looked at. -/
def isPackedText (data : List UInt8) : Bool :=
  match cutAtZero? data with
  | some (keyword, method :: _) => isKeyword keyword && method == 0
  | _ => false

/-- An international text: its keyword, and its text if that can be unpacked. -/
structure WideText where
  keyword : String
  text : Option String
deriving Repr, DecidableEq

/-- The international text that the data of a chunk is. -/
def readWideText? (data : List UInt8) : Option WideText := do
  let (keyword, rest) ← cutAtZero? data
  match rest with
  | flag :: method :: rest => do
      let (language, rest) ← cutAtZero? rest
      let (translated, text) ← cutAtZero? rest
      let _ ← ofUtf8? translated
      if !isKeyword keyword || 1 < flag.toNat || (flag = 1 && method ≠ 0)
          || language.any (fun b => 128 ≤ b.toNat) then none
      else if flag = 1 then
        some ⟨latin1 keyword, (Deflate.unpackChecked? text).bind ofUtf8?⟩
      else do
        let text ← ofUtf8? text
        some ⟨latin1 keyword, some text⟩
  | _ => none

end Publication.Image.Png
