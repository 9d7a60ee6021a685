import Mathlib.Data.List.Induction
import Publication.Proofs.FileSystem.Replacing

/-! Changes that stay inside a region of the tree. Where trees are the same at every place, each
path leads to the same; and in a tree nothing is below a place that is free, so a path that only
leads down comes to no other file when directories are made.
-/

namespace Publication.FileSystem

-----------------------------------------------------------------------------------------
-- Places outside a region
-----------------------------------------------------------------------------------------

/-- Nothing at all changes outside a region. -/
structure SameOutside (region : Location → Prop) (before after : FileSystem) : Prop where
  here : after.here = before.here
  entries : ∀ place, ¬ region place → after.entry? place = before.entry? place

section

variable {region greater : Location → Prop} {first second third : FileSystem}

theorem SameOutside.refl (region : Location → Prop) (fs : FileSystem) : SameOutside region fs fs :=
  ⟨rfl, fun _ _ => rfl⟩

theorem SameOutside.trans (earlier : SameOutside region first second)
    (later : SameOutside region second third)
    : SameOutside region first third where
  here := later.here.trans earlier.here
  entries := fun place outside =>
    (later.entries place outside).trans (earlier.entries place outside)

theorem SameOutside.mono (same : SameOutside region first second)
    (covers : ∀ place, region place → greater place)
    : SameOutside greater first second where
  here := same.here
  entries := fun place outside => same.entries place fun inside => outside (covers place inside)

/-- A file outside the region holds what it held. -/
theorem SameOutside.has_iff (same : SameOutside region first second) {place : Location}
    (outside : ¬ region place) (bytes : List UInt8)
    : second.Has place bytes ↔ first.Has place bytes := by
  simp only [Has, same.entries place outside]

end

/-- A file is put at one place. -/
theorem Filled.sameOutside {fs after : FileSystem} {path : Path} {bytes : List UInt8}
    (filled : fs.Filled path bytes after)
    : SameOutside (· = path.place fs.here) fs after := by
  obtain ⟨executable, entries⟩ := filled.entry?
  exact ⟨filled.here, fun place outside => by rw [entries, if_neg outside]⟩

/-- A directory is made at one place. -/
theorem sameOutside_of_makeDirectory {fs after : FileSystem} {path : Path}
    (made : fs.makeDirectory path = .ok after)
    : SameOutside (· = path.place fs.here) fs after := by
  obtain ⟨place, found, free, rfl⟩ := makeDirectory_eq_ok made
  have below : place ≠ [] := by
    rintro rfl
    cases free
  obtain ⟨filled, _, goal⟩ := (locate_eq_ok_iff fs _ place).mp found
  rw [(exists_text_eq_withoutSlashes path).1] at filled
  rw [(exists_trail_eq_withoutSlashes filled fs.here).1, goal]
  exact ⟨rfl, fun other outside => by rw [entry?_put fs below, if_neg outside]⟩

/-- A place is dropped with what is below it. -/
theorem sameOutside_drop (fs : FileSystem) (target : Location)
    : SameOutside (target <+: ·) fs (fs.drop target) := by
  refine ⟨rfl, fun place outside => ?_⟩
  by_cases root : place = []
  · rw [root, entry?_root, entry?_root]
  · rw [entry?_drop fs target root, if_neg outside]

-----------------------------------------------------------------------------------------
-- Trees that are the same everywhere
-----------------------------------------------------------------------------------------

section

variable {before after : FileSystem} (same : SameOutside nowhere before after)

include same

theorem SameOutside.entry?_eq (place : Location) : after.entry? place = before.entry? place :=
  same.entries place id

/-- Pieces lead to the same place, by induction on them. -/
theorem SameOutside.follow_eq (place : Location) (pieces : List (List Char))
    : after.follow place pieces = before.follow place pieces := by
  induction pieces generalizing place with
  | nil => rfl
  | cons piece rest ih =>
      have next : after.step place piece = before.step place piece := by
        simp only [step, same.entry?_eq]
      simp only [follow, next, ih]

/-- A path leads to the same file. -/
theorem SameOutside.read_eq (path : Path) : after.read path = before.read path := by
  have found : after.locate path = before.locate path := by
    simp only [locate, same.here, same.follow_eq]
  simp only [read, at?, found, same.entry?_eq]

end

-----------------------------------------------------------------------------------------
-- Places that are free
-----------------------------------------------------------------------------------------

/-- What is in a tree is in a directory of the tree. -/
def Rooted (fs : FileSystem) : Prop :=
  ∀ found ∈ fs.entries, fs.entry? found.1.dropLast = some .directory

instance (fs : FileSystem) : Decidable fs.Rooted :=
  inferInstanceAs (Decidable (∀ found ∈ fs.entries, fs.entry? found.1.dropLast = some .directory))

/-- Nothing is below a place that is free, by induction on the names that lead on from it. -/
theorem Rooted.entry?_below {fs : FileSystem} (rooted : fs.Rooted) {place : Location}
    (free : fs.entry? place = none) (names : Location)
    : fs.entry? (place ++ names) = none := by
  induction names using List.reverseRecOn with
  | nil => rwa [List.append_nil]
  | append_singleton names name ih =>
      cases held : fs.entry? (place ++ (names ++ [name])) with
      | none => rfl
      | some entry =>
          rw [entry?_eq_find? fs (by simp)] at held
          have outer := rooted _ (mem_of_find?_eq_some held)
          rw [← List.append_assoc, List.dropLast_concat, ih] at outer
          cases outer

-----------------------------------------------------------------------------------------
-- Paths that only lead down
-----------------------------------------------------------------------------------------

/-- A path that leads to no parent on its way. -/
def Descends (path : Path) : Prop := ['.', '.'] ∉ Text.splitOn '/' path.text.toList

instance (path : Path) : Decidable (Descends path) :=
  inferInstanceAs (Decidable (['.', '.'] ∉ Text.splitOn '/' path.text.toList))

theorem isPrefix_walk {pieces : List (List Char)} (down : ['.', '.'] ∉ pieces) (place : Location)
    : place <+: place.walk pieces := by
  induction pieces generalizing place with
  | nil => exact List.prefix_rfl
  | cons piece rest ih =>
      obtain ⟨own, others⟩ := List.ne_and_not_mem_of_not_mem_cons down
      refine List.IsPrefix.trans ?_ (ih others _)
      rw [Location.descend]
      split
      · exact List.prefix_rfl
      · rw [if_neg own.symm]
        exact List.prefix_append place _

/-- The places on the way down to a place are those that it is below. -/
theorem isPrefix_of_mem_trail {pieces : List (List Char)} (down : ['.', '.'] ∉ pieces)
    {place on : Location} (way : on ∈ place.trail pieces)
    : on <+: place.walk pieces := by
  induction pieces generalizing place with
  | nil => cases way
  | cons piece rest ih =>
      rcases List.mem_cons.mp way with rfl | later
      · exact isPrefix_walk down on
      · exact ih (fun up => down (List.mem_cons_of_mem _ up)) later

/-- Where nothing changes but directories that are made, a path that only leads down leads to no
file that it did not lead to: a file that it comes to had its directories before.
-/
theorem Rooted.read_of_frame {before after : FileSystem} (rooted : before.Rooted)
    (frame : Frame nowhere before after) {path : Path} (down : Descends path)
    {bytes : List UInt8} (read : after.read path = .ok bytes)
    : before.read path = .ok bytes := by
  obtain ⟨place, executable, led, held⟩ := (read_eq_ok_iff after path bytes).mp read
  have old : before.entry? place = some (.file bytes executable) :=
    (frame.file_iff id bytes executable).mp held
  obtain ⟨filled, passed, rfl⟩ := (locate_eq_ok_iff after path place).mp led
  rw [frame.here] at passed old
  refine (read_eq_ok_iff before path bytes).mpr ⟨_, executable,
    (locate_eq_ok_iff before path _).mpr ⟨filled, fun on way => ?_, rfl⟩, old⟩
  rcases frame.outside on id with same | ⟨free, _⟩
  · rw [← same]
    exact passed on way
  · obtain ⟨names, whole⟩ := isPrefix_of_mem_trail down way
    have none_below := rooted.entry?_below free names
    rw [whole] at none_below
    cases none_below.symm.trans old

end Publication.FileSystem
