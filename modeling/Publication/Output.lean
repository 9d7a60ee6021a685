import Publication.Path

/-!
Where a publication is written: `name.html`, `name.toc`, `name.meta` and a directory `name` of
resources, all in one directory.
-/

namespace Publication

/-- The directory and the name that a publication is written to. -/
structure Output where
  dir : Path
  name : String
deriving Repr, DecidableEq, Inhabited

namespace Output

/-- The name of a publication whose input has none. -/
def fallbackName : String := "index"

/-- The place for the publication of an input. An argument that ends in a separator names the
directory, another one the directory and the name. -/
def resolve (input : Path) (arg : Option String) : Output :=
  let stem := input.fileStem?.getD fallbackName
  match arg with
  | none => ⟨⟨"."⟩, stem⟩
  | some arg =>
      if arg.toList.getLast? = some '/' then ⟨⟨arg⟩, stem⟩
      else
        let path : Path := ⟨arg⟩
        ⟨path.directory, path.fileName?.getD stem⟩

/-- The HTML file. -/
def html (output : Output) : Path := output.dir.child (output.name ++ ".html")

/-- The file of the table of contents. -/
def contents (output : Output) : Path := output.dir.child (output.name ++ ".toc")

/-- The file of the record. -/
def record (output : Output) : Path := output.dir.child (output.name ++ ".meta")

/-- The directory of the resources. -/
def resources (output : Output) : Path := output.dir.child output.name

end Output
end Publication
