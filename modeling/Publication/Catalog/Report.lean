import Publication.Path
import Publication.Text.Message

/-!
What is said about a change to a catalog.
-/

namespace Publication.Catalog

open Publication.Text

/-- What happened to a catalog. -/
inductive Change where
  | merged
  | removed
  | notFound
deriving Repr, DecidableEq

/-- What is said about a change: the lines of it. -/
def report (change : Change) (url : String) (catalog : Path) (size : Nat) : List String :=
  let outcome := url ++ " → " ++ catalog.text ++ " (" ++ counted size "entry" "entries" ++ ")"
  match change with
  | .merged => ["Merged " ++ outcome]
  | .removed => ["Removed " ++ outcome]
  | .notFound => ["No entry for " ++ url ++ " in " ++ catalog.text]

end Publication.Catalog
