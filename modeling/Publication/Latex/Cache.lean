import Publication.FileSystem.Operations
import Publication.Image.Png

/-!
The source that an image was rendered from, remembered in the image itself: its hash is one of the
texts of the PNG file.
-/

namespace Publication.Latex

open Publication.Image

/-- The keyword of the text that holds the hash. -/
def hashKeyword : String := "tex_hash"

/-- The hash that a picture carries. An international text counts where there is no plain one. -/
def hashOf? (head : Png.Head) : Option String :=
  match head.texts.find? (·.1 = hashKeyword) with
  | some entry => some entry.2
  | none => (head.wideTexts.find? (·.keyword = hashKeyword)).bind (·.text)

/-- The hash that an image file carries, if it is one and does. -/
def storedHash (fs : FileSystem) (png : Path) : Option String :=
  match fs.read png with
  | .ok bytes => (Png.readHead? bytes).bind fun (head, _) => hashOf? head
  | .error _ => none

/-- Why a hash could not be stored. -/
inductive CacheError where
  | file (error : FileError)
  /-- The file does not hold a picture. -/
  | undecodable
  /-- The picture or the hash cannot be written. -/
  | unencodable
  /-- The file could not be replaced. -/
  | unreplaceable (error : FileError)
deriving Repr, DecidableEq

def CacheError.message : CacheError → String
  | .file e => "IO error: " ++ e.message
  | .undecodable => "PNG decode error"
  | .unencodable => "PNG encode error"
  | .unreplaceable e => "Failed to replace image: " ++ e.message

/-- A picture with a hash instead of the one that it carries. International texts are left out. -/
def withHash (hash : String) (picture : Png.Picture) : Png.Picture :=
  { picture with head := { picture.head with
      texts :=
        picture.head.texts.filter (fun entry => entry.1 ≠ hashKeyword) ++ [(hashKeyword, hash)]
      wideTexts := [] } }

/-- Stores a hash in an image file, all or nothing. This is what is left when an error has been let
go: until then a temporary file that could not replace the image belongs to it. -/
def storeHash (fs : FileSystem) (png : Path) (hash : String) : Except CacheError FileSystem :=
  match fs.read png with
  | .error .isDirectory => .error .undecodable
  | .error e => .error (.file e)
  | .ok bytes =>
      match Png.read? bytes with
      | none => .error .undecodable
      | some picture =>
          match Png.write? (withHash hash picture) with
          | none => .error .unencodable
          | some bytes =>
              match fs.replaceFile png bytes with
              | .ok fs => .ok fs
              | .error e => .error (.unreplaceable e)

end Publication.Latex
