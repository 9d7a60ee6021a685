/-!
Names that must not collide. The first claim of a name gets it; a later one gets it behind the least
free number, as in `1_name`.
-/

namespace Publication.Naming

/-- The names claimed so far, latest first. -/
structure Registry where
  taken : List String
deriving Repr, DecidableEq

/-- No name is claimed. -/
def Registry.empty : Registry := ⟨[]⟩

/-- The candidates for `base` in the order in which they are tried: `base` itself, then `base`
behind the numbers from one. -/
def candidate (base : String) : Nat → String
  | 0 => base
  | k + 1 => toString (k + 1) ++ "_" ++ base

/-- The first candidate from number `k` that is not taken, or the last one tried. -/
def firstFree (taken : List String) (base : String) : (tries k : Nat) → String
  | 0, k => candidate base k
  | tries + 1, k =>
      if candidate base k ∈ taken then firstFree taken base tries (k + 1) else candidate base k

/-- `base` if it is free, and otherwise the first free name derived from it. Among one candidate
more than there are names taken, one is free. -/
def unique (base : String) (taken : List String) : String :=
  firstFree taken base taken.length 0

/-- Hands out a name derived from `base` that was not claimed before. -/
def Registry.claim (names : Registry) (base : String) : String × Registry :=
  let name := unique base names.taken
  (name, ⟨name :: names.taken⟩)

/-- The names handed out for the bases in order. -/
def Registry.claimAll (names : Registry) : List String → List String
  | [] => []
  | base :: rest =>
      let (name, names) := names.claim base
      name :: names.claimAll rest

end Publication.Naming
