import Publication.Proofs.FileSystem.Effects

/-! What files hold at their places, whatever paths lead there. A file that is put changes what is
held at one place; directories stay, so a path that leads to a place goes on leading there.
-/

namespace Publication.FileSystem

-----------------------------------------------------------------------------------------
-- Files at places
-----------------------------------------------------------------------------------------

/-- There is a file of these octets at a place. -/
def Has (fs : FileSystem) (place : Location) (bytes : List UInt8) : Prop :=
  ∃ executable, fs.entry? place = some (.file bytes executable)

section

variable {fs after : FileSystem} {place : Location} {path : Path} {bytes found : List UInt8}

theorem Has.eq (has : fs.Has place bytes) (other : fs.Has place found) : bytes = found := by
  obtain ⟨_, held⟩ := has
  obtain ⟨_, same⟩ := other
  rw [held] at same
  cases same
  rfl

theorem read_iff_has (led : fs.locate path = .ok place) (bytes : List UInt8)
    : fs.read path = .ok bytes ↔ fs.Has place bytes := by
  simp [read_eq_ok_iff, led, Has]

/-- What is read is held where the path leads. -/
theorem has_of_read (read : fs.read path = .ok bytes) : fs.Has (path.place fs.here) bytes := by
  obtain ⟨place, _, led, _⟩ := (read_eq_ok_iff fs path bytes).mp read
  rw [((locate_eq_ok_iff fs path place).mp led).2.2]
  exact (read_iff_has led bytes).mp read

/-- Where nothing changes but directories that are made, files hold what they held. -/
theorem Frame.has_iff {region : Location → Prop} (frame : Frame region fs after)
    (outside : ¬ region place) (bytes : List UInt8)
    : after.Has place bytes ↔ fs.Has place bytes :=
  exists_congr fun executable => frame.file_iff outside bytes executable

theorem Filled.has_self (filled : fs.Filled path bytes after) (found : List UInt8)
    : after.Has (path.place fs.here) found ↔ found = bytes := by
  obtain ⟨executable, entries⟩ := filled.entry?
  simp [Has, entries, eq_comm]

theorem Filled.has_iff (filled : fs.Filled path bytes after) (apart : place ≠ path.place fs.here)
    (found : List UInt8)
    : after.Has place found ↔ fs.Has place found := by
  obtain ⟨executable, entries⟩ := filled.entry?
  simp [Has, entries, apart]

end

-----------------------------------------------------------------------------------------
-- Directories that stay
-----------------------------------------------------------------------------------------

/-- The directories stay where they are. -/
structure Grows (before after : FileSystem) : Prop where
  here : after.here = before.here
  directories
    : ∀ place, before.entry? place = some .directory → after.entry? place = some .directory

theorem Grows.refl (fs : FileSystem) : Grows fs fs := ⟨rfl, fun _ held => held⟩

theorem Grows.trans {first second third : FileSystem} (earlier : Grows first second)
    (later : Grows second third)
    : Grows first third :=
  ⟨later.here.trans earlier.here, fun _ held => later.directories _ (earlier.directories _ held)⟩

/-- A path leads where it led. -/
theorem Grows.locate {before after : FileSystem} (grows : Grows before after) {path : Path}
    {place : Location} (led : before.locate path = .ok place)
    : after.locate path = .ok place :=
  locate_of_directories grows.here (fun place _ => grows.directories place) led

theorem Within.grows {part whole : FileSystem} (within : Within part whole) : Grows part whole :=
  ⟨within.here, fun place => within.entries place .directory⟩

theorem Filled.grows {fs after : FileSystem} {path : Path} {bytes : List UInt8}
    (filled : fs.Filled path bytes after)
    : Grows fs after :=
  ⟨filled.here, fun place => (filled.directory_iff place).mpr⟩

/-- What was put where a path leads is held there as long as the directories stay. -/
theorem Filled.locate {fs after : FileSystem} {path : Path} {bytes : List UInt8}
    (filled : fs.Filled path bytes after)
    : fs.locate path = .ok (path.place fs.here) := by
  obtain ⟨place, _, led, _, _⟩ := filled
  rw [((locate_eq_ok_iff fs path place).mp led).2.2]
  exact led

/-- Files are put in a region at most; directories stay. -/
structure Gains (region : Location → Prop) (before after : FileSystem) : Prop where
  frame : Frame region before after
  grows : Grows before after

section

variable {region greater : Location → Prop} {first second third : FileSystem}

theorem Gains.refl (region : Location → Prop) (fs : FileSystem) : Gains region fs fs :=
  ⟨.refl region fs, .refl fs⟩

theorem Gains.trans (earlier : Gains region first second) (later : Gains region second third)
    : Gains region first third :=
  ⟨earlier.frame.trans later.frame, earlier.grows.trans later.grows⟩

theorem Gains.mono (gains : Gains region first second)
    (covers : ∀ place, region place → greater place)
    : Gains greater first second :=
  ⟨gains.frame.mono covers, gains.grows⟩

theorem Gains.has_iff (gains : Gains region first second) {place : Location}
    (outside : ¬ region place) (bytes : List UInt8)
    : second.Has place bytes ↔ first.Has place bytes :=
  gains.frame.has_iff outside bytes

/-- The making of directories puts no file. -/
theorem gains_makeDirectories (region : Location → Prop) (path : Path) (fs : FileSystem)
    : Gains region fs (makeDirectories path fs).2 :=
  have frame := frame_makeDirectories path fs
  ⟨frame.mono fun _ => False.elim, frame.within.grows⟩

theorem Filled.gains {path : Path} {bytes : List UInt8} (filled : first.Filled path bytes second)
    : Gains (· = path.place first.here) first second :=
  ⟨filled.frame, filled.grows⟩

end

end Publication.FileSystem
