import Publication.FileSystem.Operations

/-!
Thumbnails: the file next to an image that holds a small version of it. How a picture is read and
made smaller is taken from outside.
-/

namespace Publication.Image

/-- Where the thumbnail of an image is written. -/
def thumbnailPath (source : Path) : Path :=
  source.withFileName (source.fileStem?.getD "" ++ ".thumb.png")

/-- Why there is no thumbnail. -/
inductive Error where
  /-- A file could not be read. -/
  | file (path : Path) (error : FileError)
  /-- A file does not hold a picture, or the thumbnail could not be written to it. -/
  | picture (path : Path)
deriving Repr, DecidableEq

/-- The error in words. What is wrong with a picture is not told. -/
def Error.message : Error → String
  | .file path e => "IO error reading " ++ path.text ++ ": " ++ e.message
  | .picture path => "Failed to process " ++ path.text

/-- How the picture in an image file is fitted into a square: the octets of a file with the result,
or nothing if there is no picture in the image file. -/
class Scaler where
  scaled? : (image : List UInt8) → (edge : Nat) → Option (List UInt8)

/-- Writes the thumbnail of an image, which fits into a square. -/
def createThumbnail [Scaler] (fs : FileSystem) (source output : Path) (edge : Nat) :
    Except Error FileSystem :=
  match fs.read source with
  | .error e => .error (.file source e)
  | .ok image =>
      match Scaler.scaled? image edge with
      | none => .error (.picture source)
      | some bytes =>
          match fs.write output bytes with
          | .ok fs => .ok fs
          | .error _ => .error (.picture output)

end Publication.Image
