/-!
How many images of a document were taken from the cache and how many were rendered. The numbers
have no bound; below 2 ^ 32 images they are those that 32 bits hold.
-/

namespace Publication.Latex

/-- Images found in the cache and images rendered. -/
structure Usage where
  hits : Nat := 0
  misses : Nat := 0
deriving Repr, DecidableEq

namespace Usage

/-- One more image found in the cache. -/
def hit (usage : Usage) : Usage := { usage with hits := usage.hits + 1 }

/-- One more image rendered. -/
def miss (usage : Usage) : Usage := { usage with misses := usage.misses + 1 }

/-- All images. -/
def total (usage : Usage) : Nat := usage.hits + usage.misses

/-- The counts in words. The cache is mentioned only if it was of use. -/
def display (usage : Usage) : String :=
  if 0 < usage.hits then
    toString usage.hits ++ " cached, " ++ toString usage.misses ++ " rendered ("
      ++ toString usage.total ++ " total)"
  else toString usage.misses ++ " rendered"

end Usage
end Publication.Latex
