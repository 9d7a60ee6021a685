import Publication.Text.Octets

/-!
Text made safe for HTML: as content, as the value of an attribute, and as a reference.
-/

namespace Publication.Html

def contentChar (c : Char) : String :=
  match c with
  | '&' => "&amp;"
  | '<' => "&lt;"
  | '>' => "&gt;"
  | c => c.toString

/-- A character of an attribute value between double quotes. -/
def attributeChar (c : Char) : String :=
  match c.toNat with
  | 0x22 => "&quot;"
  | 0x27 => "&#39;"
  | _ => contentChar c

def content (text : String) : String := String.join (text.toList.map contentChar)

def attributeValue (text : String) : String := String.join (text.toList.map attributeChar)

/-- An octet of a reference that stands for itself. -/
def isPlainOctet (b : UInt8) : Bool :=
  let c := Char.ofNat b.toNat
  c.isAlphanum || "!#$%()*+,-./:;=?@^_~".toList.contains c

def referenceOctet (b : UInt8) : List Char :=
  if isPlainOctet b then [Char.ofNat b.toNat]
  else if b = 0x26 then "&amp;".toList
  else if b = 0x27 then "&#x27;".toList
  else
    let digit n := (Text.hexDigit n).toUpper
    ['%', digit (b.toNat / 16), digit (b.toNat % 16)]

/-- The target of a link or an image. -/
def reference (target : String) : String :=
  String.ofList (target.toUTF8.toList.flatMap referenceOctet)

end Publication.Html
