import Publication.Record

/-!
A catalog: records in order. A record replaces those with its url and becomes the last one.
-/

namespace Publication

/-- Records in order. -/
structure Catalog where
  entries : List Record := []
deriving Repr, DecidableEq, Inhabited

namespace Catalog

/-- Puts a record behind all others, instead of those with its url. -/
def merge (catalog : Catalog) (record : Record) : Catalog :=
  ⟨catalog.entries.filter (fun r => r.url ≠ record.url) ++ [record]⟩

/-- Whether there is a record with a url. -/
def contains (catalog : Catalog) (url : String) : Bool := catalog.entries.any fun r => r.url = url

/-- The catalog without the records with a url. -/
def remove (catalog : Catalog) (url : String) : Catalog :=
  ⟨catalog.entries.filter fun r => r.url ≠ url⟩

/-- Removes the records with a url, and tells whether there were any: whether fewer are left. -/
def withdraw (catalog : Catalog) (url : String) : Bool × Catalog :=
  let rest := catalog.remove url
  (rest.entries.length ≠ catalog.entries.length, rest)

end Catalog
end Publication
