import Publication.Article.Basic
import Publication.Document.Contents.Codec
import Publication.FileSystem.Operations
import Publication.Output
import Publication.Record

/-!
Publishing an article: its files and its resources are written to an output. A resource that cannot
be copied is only warned of, unless the article is not complete without it.
-/

namespace Publication

/-- What was not published, and why. -/
inductive Warning where
  | resource (source : Path) (target : String) (error : FileError)
  | includedFile (source : Path) (error : FileError)
  | unnamedInclude (path : Path)
  | missingInclude (path : Path)
deriving Repr, DecidableEq

def Warning.message : Warning → String
  | .resource source target e =>
      "could not copy " ++ source.text ++ " to " ++ target ++ ": " ++ e.message
  | .includedFile source e => "could not copy include " ++ source.text ++ ": " ++ e.message
  | .unnamedInclude path => "include " ++ path.text ++ " has no file name"
  | .missingInclude path => "include " ++ path.text ++ " does not exist"

/-- Why an article was not published. -/
inductive PublishError where
  | file (error : FileError)
  | essential (source : Path) (target : String) (error : FileError)
deriving Repr, DecidableEq

def PublishError.message : PublishError → String
  | .file e => "IO error: " ++ e.message
  | .essential source target e =>
      "failed to copy essential resource " ++ source.text ++ " to " ++ target ++ ": " ++ e.message

structure Published where
  /-- The files of the article itself. -/
  written : List Path := []
  copied : Nat := 0
  warnings : List Warning := []
deriving Repr, DecidableEq

namespace Published

/-- One more file is copied. -/
def count (published : Published) : Published := { published with copied := published.copied + 1 }

/-- Something is left out. -/
def warn (published : Published) (warning : Warning) : Published :=
  { published with warnings := published.warnings ++ [warning] }

end Published

/-- Publishing: what was done before a failure stays done. -/
abbrev Publishing (α : Type) := ExceptT PublishError (StateM FileSystem) α

/-- Copies a file, and makes the directories that the copy is to be in. -/
def copyInto (source goal : Path) : FileSystem.Task Unit := do
  match goal.parent? with
  | some dir => FileSystem.makeDirectories dir
  | none => pure ()
  FileSystem.perform fun fs => fs.copy source goal

/-- Copies a file. A failure does not end the work; what is done of it is handed on. -/
def attempt (source goal : Path) (fs : FileSystem) : Option FileError × FileSystem :=
  match copyInto source goal fs with
  | (.ok (), fs) => (none, fs)
  | (.error e, fs) => (some e, fs)

/-- Copies the resources of an article into a directory. -/
def copyResources (dir : Path) : List Document.Resource → Published → Publishing Published
  | [], published => return published
  | r :: rest, published => do
      let failure ← modifyGet (attempt r.source (dir.child r.target))
      match failure with
      | none => copyResources dir rest published.count
      | some e =>
          if r.essential then throw (.essential r.source r.target e)
          else copyResources dir rest (published.warn (.resource r.source r.target e))

/-- Copies a file that is included under a path. -/
def copyIncluded (published : Published) (source goal : Path) (fs : FileSystem) :
    Published × FileSystem :=
  match attempt source goal fs with
  | (none, fs) => (published.count, fs)
  | (some e, fs) => (published.warn (.includedFile source e), fs)

/-- The files below a directory, by the names that lead to them from there. All are listed before
one of them is copied. A listing that goes on meanwhile finds the same, unless the copies go below
the directory itself, that is, an include holds the output. -/
def filesBelow (fs : FileSystem) (dir : Path) : List String :=
  (fs.listing dir).filterMap fun (names, entry) =>
    match entry with
    | .file _ _ => some (String.intercalate "/" names)
    | .directory => none

/-- Copies an included file under its name into a directory, or an included directory with
everything below it. -/
def copyInclude (dir : Path) (published : Published) (path : Path) (fs : FileSystem) :
    Published × FileSystem :=
  match path.fileName? with
  | none => (published.warn (.unnamedInclude path), fs)
  | some name =>
      let goal := dir.child name
      if fs.isFile path then copyIncluded published path goal fs
      else if fs.isDirectory path then
        (filesBelow fs path).foldl
          (fun (published, fs) file =>
            copyIncluded published (path.child file) (goal.child file) fs)
          (published, fs)
      else (published.warn (.missingInclude path), fs)

/-- Copies the includes of an article into a directory. -/
def copyIncludes (dir : Path) (includes : List Path) (published : Published) (fs : FileSystem) :
    Published × FileSystem :=
  includes.foldl (fun (published, fs) path => copyInclude dir published path fs) (published, fs)

def Article.files (article : Article) (output : Output) : List (Path × String) :=
  [(output.html, article.html),
   (output.contents, Document.Entry.listText article.contents),
   (output.record, article.record.toText)]

def writeTexts : List (Path × String) → FileSystem.Task Unit
  | [] => return ()
  | (path, text) :: rest => do
      FileSystem.perform fun fs => fs.writeText path text
      writeTexts rest

def Article.publish (article : Article) (output : Output) : Publishing Published := do
  let files := article.files output
  ExceptT.adapt .file do
    FileSystem.makeDirectories output.dir
    writeTexts files
    FileSystem.makeDirectories output.resources
  let published ← copyResources output.dir article.resources { written := files.map (·.1) }
  modifyGet (copyIncludes output.resources article.includes published)

end Publication
