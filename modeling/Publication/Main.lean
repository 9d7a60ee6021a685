import Publication.CommandLine.Perform
import Publication.Image.Size
import Publication.Shell.Launch
import Publication.Text.Transliteration.Table

/-!
The program. It takes a snapshot of the current directory and of the directories of its arguments,
does what is asked for on the snapshot, and writes back what has changed.
-/

namespace Publication.Snapshot

/-- Whether the octets of a file begin with the line that names an interpreter. -/
def namesInterpreter (bytes : List UInt8) : Bool := (Text.utf8 "#!").isPrefixOf bytes

/-- The entries at and below a place. Links to directories are not followed. -/
partial def load (place : Location) (entry : IO.FS.DirEntry) : IO (List (Location × Entry)) := do
  match (← entry.path.symlinkMetadata).type with
  | .dir =>
      let below ← (← entry.path.readDir).toList.mapM fun e => load (place ++ [e.fileName]) e
      return (place, .directory) :: below.flatten
  | _ =>
      if (← entry.path.isDir) || !(← entry.path.pathExists) then return []
      let bytes := (← IO.FS.readBinFile entry.path).data.toList
      return [(place, .file bytes (namesInterpreter bytes))]

def namesOf (path : String) : Location :=
  (Path.components ⟨path⟩).filterMap fun
    | .name name => some name
    | _ => none

def addDirectory (fs : FileSystem) (place : Location) : IO FileSystem := do
  let path := "/" ++ String.intercalate "/" place
  let above := (List.range place.length).map fun n => (place.take (n + 1), Entry.directory)
  let found ← try load place ⟨path, ""⟩ catch _ => pure []
  return (above ++ found).foldl (fun (fs : FileSystem) (l, entry) => fs.put l entry) fs

/-- The places of the directories that arguments name files in. -/
def placesOf (here : Location) (arguments : List String) : List Location :=
  (arguments.filter fun argument => argument.toList.contains '/').map fun argument =>
    let dir := (Path.directory ⟨argument⟩).text
    if dir.startsWith "/" then namesOf dir
    else
      (Path.components ⟨dir⟩).foldl (fun (place : Location) component =>
        match component with
        | .up => place.dropLast
        | .name name => place ++ [name]
        | _ => place) here

/-- The snapshot for a command line, with an empty directory for scratch directories. What is below
a directory that is there already is not loaded again. -/
def take (arguments : List String) : IO FileSystem := do
  let here := namesOf (← IO.currentDir).toString
  let mut fs ← addDirectory ⟨here, [(Latex.scratchRoot, .directory)]⟩ here
  for place in placesOf here arguments do
    unless here.isPrefixOf place do
      fs ← addDirectory fs place
  return fs

def writeEntry (place : Location) (entry : Entry) : IO Unit := do
  let path := "/" ++ String.intercalate "/" place
  match entry with
  | .directory => IO.FS.createDirAll path
  | .file bytes _ => IO.FS.writeBinFile path ⟨bytes.toArray⟩

def removeEntry (place : Location) (entry : Entry) : IO Unit := do
  let path := "/" ++ String.intercalate "/" place
  match entry with
  | .directory => IO.FS.removeDir path
  | .file _ _ => IO.FS.removeFile path

def writeBack (before after : FileSystem) : IO Unit := do
  for (place, entry) in before.entries.reverse do
    if (after.entry? place).isNone then removeEntry place entry
  for (place, entry) in after.entries do
    unless before.entry? place = some entry do writeEntry place entry

end Publication.Snapshot

open Publication in
open scoped Publication.StandIns in
/-- Runs the program, with stand-ins for what is taken from outside. -/
def main (arguments : List String) : IO UInt32 := do
  let before ← Snapshot.take arguments
  let (reply, after) := CommandLine.respond Shell.launch before arguments
  Snapshot.writeBack before after
  IO.print reply.output
  if let some complaint := reply.complaint then IO.eprintln ("Error: " ++ complaint)
  return UInt32.ofNat reply.exit
