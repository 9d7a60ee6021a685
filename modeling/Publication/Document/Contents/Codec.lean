import Publication.Document.Contents
import Publication.Json.Structure
import Publication.Json.Writer

/-!
Tables of contents as JSON: a sequence of entries, each with its level, label and anchor.
-/

namespace Publication.Document.Entry

open Publication.Json

/-- The parts of an entry in order. -/
def fields : List (Member Entry) := [
  ⟨"level", false, fun e s => (readOctet s).map fun (x, s) => ({ e with level := x }, s)⟩,
  ⟨"label", false, fun e s => (readString s).map fun (x, s) => ({ e with label := x }, s)⟩,
  ⟨"id", false, fun e s => (readString s).map fun (x, s) => ({ e with id := x }, s)⟩]

def read : Reader Entry := readTuple fields ⟨0, "", ""⟩

def toJson (entry : Entry) : Json.Value :=
  .array [.number entry.level, .string entry.label, .string entry.id]

def listOfText (text : String) : Except ReadError (List Entry) := readAll (readSequence read) text

/-- The text of a table of contents. -/
def listText (entries : List Entry) : String := pretty (.array (entries.map toJson))

end Publication.Document.Entry
