import Publication.Json.Structure
import Publication.Json.Writer

/-!
The record of a publication: what a catalog tells about it. As JSON it is an object with a field for
each part.
-/

namespace Publication

/-- What is told about a publication. -/
structure Record where
  /-- The name that it is published under. -/
  url : String
  title : String
  subtitle : Option String := none
  img : Option String := none
  imgAlt : String := ""
  abstract : String := ""
  tags : List String := []
  /-- Whether it is to appear in listings. -/
  «show» : Bool := true
deriving Repr, DecidableEq, Inhabited

namespace Record

open Publication.Json

/-- The fields of a record. Only the first two are required. -/
def fields : List (Member Record) := [
  ⟨"url", false, fun r s => (readString s).map fun (x, s) => ({ r with url := x }, s)⟩,
  ⟨"title", false, fun r s => (readString s).map fun (x, s) => ({ r with title := x }, s)⟩,
  ⟨"subtitle", true, fun r s =>
    (readOption readString s).map fun (x, s) => ({ r with subtitle := x }, s)⟩,
  ⟨"img", true, fun r s => (readOption readString s).map fun (x, s) => ({ r with img := x }, s)⟩,
  ⟨"img_alt", true, fun r s => (readString s).map fun (x, s) => ({ r with imgAlt := x }, s)⟩,
  ⟨"abstract", true, fun r s => (readString s).map fun (x, s) => ({ r with abstract := x }, s)⟩,
  ⟨"tags", true, fun r s =>
    (readSequence readString s).map fun (x, s) => ({ r with tags := x }, s)⟩,
  ⟨"show", true, fun r s => (readBool s).map fun (x, s) => ({ r with «show» := x }, s)⟩]

def read : Reader Record := readStructure "PublicationMeta" fields { url := "", title := "" }

/-- A text that may be missing. -/
def optional : Option String → Json.Value
  | some text => .string text
  | none => .null

def toJson (record : Record) : Json.Value :=
  .object [
    ("url", .string record.url),
    ("title", .string record.title),
    ("subtitle", optional record.subtitle),
    ("img", optional record.img),
    ("img_alt", .string record.imgAlt),
    ("abstract", .string record.abstract),
    ("tags", .array (record.tags.map .string)),
    ("show", .boolean record.show)]

def ofText (text : String) : Except ReadError Record := readAll read text

def toText (record : Record) : String := pretty record.toJson

end Record
end Publication
