import Publication.Proofs.FileSystem.Directories
import Publication.Proofs.Naming.Claims

/-! Files that are replaced, and files that are there only for a while. What was put last is held;
and a file that was put at a free place and taken away again leaves the tree as it was.
-/

namespace Publication.FileSystem

open Publication.Naming

-----------------------------------------------------------------------------------------
-- Files that are replaced
-----------------------------------------------------------------------------------------

/-- What was put last is at a place, by induction on the list. -/
theorem replace_replace (place : Location) (entry other : Entry)
    (entries : List (Location × Entry))
    : replace place other (replace place entry entries) = replace place other entries := by
  induction entries with
  | nil => simp [replace]
  | cons head rest ih =>
      obtain ⟨l, old⟩ := head
      by_cases same : l = place
      · simp [replace, same]
      · simp [replace, same, ih]

theorem put_put (fs : FileSystem) (place : Location) (entry other : Entry)
    : (fs.put place entry).put place other = fs.put place other := by
  simp only [put, replace_replace]

section

variable {fs after : FileSystem} {path : Path} {place : Location} {bytes : List UInt8}

/-- A file is replaced where its path leads, unless a directory is there. -/
theorem replaceFile_of_locate (led : fs.locate path = .ok place)
    (free : fs.entry? place ≠ some .directory) (bytes : List UInt8)
    : fs.replaceFile path bytes = .ok (fs.put place (.file bytes false)) := by
  have plain : endsInSlash path = false :=
    Bool.eq_false_iff.mpr fun slash => free (entry?_of_endsInSlash slash led)
  simp only [replaceFile, plain, Bool.false_eq_true, if_false, led]

/-- A file that was replaced is replaced by another one as if it had not been. -/
theorem replaceFile_replaceFile (replaced : fs.replaceFile path bytes = .ok after)
    (other : List UInt8)
    : after.replaceFile path other = fs.replaceFile path other := by
  have filled := filled_of_replaceFile replaced
  obtain ⟨place, _, led, free, _⟩ := id filled
  rw [replaceFile_of_locate led free] at replaced
  have held : after.entry? place ≠ some .directory := mt (filled.directory_iff place).mp free
  rw [replaceFile_of_locate led free,
    replaceFile_of_locate ((filled.locate_iff path place).mpr led) held]
  cases replaced
  rw [put_put]

/-- Whether a file is replaced does not depend on what is written. -/
theorem replaceFile_eq_error {e : FileError} (refused : fs.replaceFile path bytes = .error e)
    (other : List UInt8)
    : fs.replaceFile path other = .error e := by
  cases led : fs.locate path with
  | error e' => simpa only [replaceFile, led] using refused
  | ok place =>
      by_cases held : fs.entry? place = some .directory
      · simpa only [replaceFile, led, held] using refused
      · rw [replaceFile_of_locate led held] at refused
        cases refused

end

-----------------------------------------------------------------------------------------
-- Free places
-----------------------------------------------------------------------------------------

/-- The first of some places that is free. -/
def freshPlace (fs : FileSystem) (place : Nat → Location) : Location :=
  let free := (List.range (fs.entries.length + 1)).find? fun n => (fs.entry? (place n)).isNone
  place (free.getD 0)

/-- What is found is listed, by induction on the list. -/
theorem mem_of_find?_eq_some {place : Location} {entry : Entry} {entries : List (Location × Entry)}
    (found : find? place entries = some entry)
    : (place, entry) ∈ entries := by
  induction entries with
  | nil => cases found
  | cons head rest ih =>
      simp only [find?] at found
      split at found
      next same =>
          cases found
          rw [← same]
          exact List.mem_cons_self
      next => exact List.mem_cons_of_mem _ (ih found)

/-- One of the places is free: more of them are tried than there are entries. -/
theorem entry?_freshPlace (fs : FileSystem) {place : Nat → Location}
    (inj : ∀ {j k : Nat}, place j = place k → j = k) (below : ∀ n, place n ≠ [])
    : fs.entry? (fs.freshPlace place) = none := by
  simp only [freshPlace]
  cases found
    : (List.range (fs.entries.length + 1)).find? fun n => (fs.entry? (place n)).isNone with
  | some n =>
      have free := List.find?_some found
      rwa [Option.isNone_iff_eq_none] at free
  | none =>
      obtain ⟨n, bound, free⟩ := exists_not_mem_of_inj inj (fs.entries.map Prod.fst)
      rw [List.length_map] at bound
      have taken := List.find?_eq_none.mp found n (List.mem_range.mpr (Nat.lt_succ_of_le bound))
      cases held : fs.entry? (place n) with
      | none => simp [held] at taken
      | some entry =>
          rw [entry?_eq_find? fs (below n)] at held
          exact absurd (List.mem_map_of_mem (mem_of_find?_eq_some held)) free

/-- Of the numbered names in a directory one is free. -/
theorem entry?_freshNumbered (fs : FileSystem) (dir : Location) (stem : String)
    : fs.entry? (fs.freshPlace fun n => dir ++ [stem ++ toString n]) = none := by
  refine fs.entry?_freshPlace (fun {j k} same => ?_) fun n => ?_
  · exact numbered_inj (List.append_singleton_inj.mp same).2
  · exact List.append_ne_nil_of_right_ne_nil _ (List.cons_ne_nil _ _)

-----------------------------------------------------------------------------------------
-- Files that are taken away
-----------------------------------------------------------------------------------------

/-- Takes away what is at a place. -/
def unlink (fs : FileSystem) (place : Location) : FileSystem :=
  ⟨fs.here, fs.entries.filter (·.1 ≠ place)⟩

/-- What was put where nothing was is taken away again, by induction on the list. -/
theorem filter_replace {place : Location} {entries : List (Location × Entry)}
    (free : find? place entries = none) (entry : Entry)
    : (replace place entry entries).filter (·.1 ≠ place) = entries := by
  induction entries with
  | nil => simp [replace]
  | cons head rest ih =>
      obtain ⟨l, old⟩ := head
      simp only [find?] at free
      split at free
      next => cases free
      next other => simpa [replace, other] using ih free

theorem unlink_put {fs : FileSystem} {place : Location} (free : fs.entry? place = none)
    (entry : Entry)
    : (fs.put place entry).unlink place = fs := by
  have below : place ≠ [] := by
    rintro rfl
    cases free
  rw [entry?_eq_find? fs below] at free
  simp only [unlink, put, filter_replace free]

end Publication.FileSystem
