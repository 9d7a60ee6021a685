import Publication.FileSystem.Operations
import Publication.Proofs.FileSystem.Places

/-! What operations on files change. A file is only ever put where no directory is, so paths lead
where they led before; the making of directories puts them only where nothing was.
-/

namespace Publication.FileSystem

-----------------------------------------------------------------------------------------
-- How trees compare
-----------------------------------------------------------------------------------------

/-- Whatever is in one tree is in the other. -/
structure Within (part whole : FileSystem) : Prop where
  here : whole.here = part.here
  entries : ∀ place entry, part.entry? place = some entry → whole.entry? place = some entry

/-- A path that leads somewhere does so as long as its directories stay. -/
theorem locate_of_directories {fs after : FileSystem} {path : Path} {goal : Location}
    (here : after.here = fs.here)
    (kept
      : ∀ place ∈ path.trail fs.here,
          fs.entry? place = some .directory → after.entry? place = some .directory)
    (found : fs.locate path = .ok goal)
    : after.locate path = .ok goal := by
  rw [locate_eq_ok_iff] at found ⊢
  rw [here]
  exact ⟨found.1, fun passed on => kept passed on (found.2.1 passed on), found.2.2⟩

theorem Within.locate {part whole : FileSystem} (within : Within part whole) {path : Path}
    {goal : Location} (found : part.locate path = .ok goal)
    : whole.locate path = .ok goal :=
  locate_of_directories within.here (fun place _ => within.entries place .directory) found

/-- A file is the same in a greater tree. -/
theorem Within.read {part whole : FileSystem} (within : Within part whole) {path : Path}
    {bytes : List UInt8} (read : part.read path = .ok bytes)
    : whole.read path = .ok bytes := by
  obtain ⟨place, executable, found, held⟩ := (read_eq_ok_iff part path bytes).mp read
  exact (read_eq_ok_iff whole path bytes).mpr
    ⟨place, executable, within.locate found, within.entries _ _ held⟩

/-- Nothing changes outside a region, except that directories are made where nothing was. -/
structure Frame (region : Location → Prop) (before after : FileSystem) : Prop where
  here : after.here = before.here
  outside
    : ∀ place, ¬ region place →
        after.entry? place = before.entry? place
        ∨ (before.entry? place = none ∧ after.entry? place = some .directory)

/-- No place at all. -/
def nowhere (_ : Location) : Prop := False

theorem Frame.refl (region : Location → Prop) (fs : FileSystem) : Frame region fs fs :=
  ⟨rfl, fun _ _ => .inl rfl⟩

/-- What changes in one region twice changes in that region. -/
theorem Frame.trans {region : Location → Prop} {first second third : FileSystem}
    (earlier : Frame region first second) (later : Frame region second third)
    : Frame region first third := by
  refine ⟨later.here.trans earlier.here, ?_⟩
  intro place outside
  rcases later.outside place outside with same | ⟨free, made⟩
  · rw [same]
    exact earlier.outside place outside
  · rcases earlier.outside place outside with same | ⟨_, held⟩
    · exact .inr ⟨same ▸ free, made⟩
    · rw [free] at held
      cases held

theorem Frame.mono {region greater : Location → Prop} {before after : FileSystem}
    (frame : Frame region before after) (covers : ∀ place, region place → greater place)
    : Frame greater before after :=
  ⟨frame.here, fun place outside => frame.outside place fun inside => outside (covers place inside)⟩

/-- What is outside the region stays. -/
theorem Frame.entry?_eq_some {region : Location → Prop} {before after : FileSystem}
    (frame : Frame region before after) {place : Location} {entry : Entry}
    (outside : ¬ region place) (held : before.entry? place = some entry)
    : after.entry? place = some entry := by
  rcases frame.outside place outside with same | ⟨free, _⟩
  · rw [same, held]
  · rw [free] at held
    cases held

/-- A file outside the region was there before. -/
theorem Frame.file_iff {region : Location → Prop} {before after : FileSystem}
    (frame : Frame region before after) {place : Location} (outside : ¬ region place)
    (bytes : List UInt8) (executable : Bool)
    : after.entry? place = some (.file bytes executable)
      ↔ before.entry? place = some (.file bytes executable) := by
  rcases frame.outside place outside with same | ⟨free, made⟩
  · rw [same]
  · simp [free, made]

theorem Frame.within {before after : FileSystem} (frame : Frame nowhere before after)
    : Within before after :=
  ⟨frame.here, fun _ _ held => frame.entry?_eq_some id held⟩

-----------------------------------------------------------------------------------------
-- Operations as steps
-----------------------------------------------------------------------------------------

section

variable {op : FileSystem → Except FileError FileSystem} {fs after : FileSystem}

/-- What is performed is done to the files. -/
theorem perform_eq_ok_iff : perform op fs = (.ok (), after) ↔ op fs = .ok after := by
  simp only [perform]
  cases op fs with
  | error e =>
      constructor
      · rintro ⟨⟩
      · rintro ⟨⟩
  | ok made =>
      constructor
      · rintro ⟨⟩
        rfl
      · rintro ⟨⟩
        rfl

/-- What fails is not done at all. -/
theorem perform_eq_error_iff {e : FileError}
    : perform op fs = (.error e, after) ↔ op fs = .error e ∧ after = fs := by
  simp only [perform]
  cases op fs with
  | ok made =>
      constructor
      · rintro ⟨⟩
      · rintro ⟨⟨⟩, _⟩
  | error e =>
      constructor
      · rintro ⟨⟩
        exact ⟨rfl, rfl⟩
      · rintro ⟨⟨⟩, rfl⟩
        rfl

end

-----------------------------------------------------------------------------------------
-- Files are put where paths lead
-----------------------------------------------------------------------------------------

/-- A file was put where a path leads, and no directory was there. -/
def Filled (fs : FileSystem) (path : Path) (bytes : List UInt8) (after : FileSystem) : Prop :=
  ∃ place executable,
    fs.locate path = .ok place
    ∧ fs.entry? place ≠ some .directory
    ∧ after = fs.put place (.file bytes executable)

/-- The place of a file to be written is where its path leads, and is no directory. -/
theorem target_eq_ok {fs : FileSystem} {path : Path} {place : Location}
    (found : fs.target path = .ok place)
    : fs.locate path = .ok place ∧ fs.entry? place ≠ some .directory := by
  simp only [target] at found
  split at found
  · split at found <;> cases found
  · split at found
    next located =>
        split at found
        next => cases found
        next free =>
            cases found
            exact ⟨located, free⟩
    next => cases found

/-- Writing puts a file. -/
theorem filled_of_write {fs after : FileSystem} {path : Path} {bytes : List UInt8}
    (written : fs.write path bytes = .ok after)
    : fs.Filled path bytes after := by
  simp only [write] at written
  split at written
  next place found =>
      cases written
      exact ⟨place, _, (target_eq_ok found).1, (target_eq_ok found).2, rfl⟩
  next => cases written

/-- Copying puts a file with the octets of the other one, or an empty one in place of itself. -/
theorem filled_of_copy {fs after : FileSystem} {source path : Path}
    (copied : fs.copy source path = .ok after)
    : ∃ bytes,
        fs.read source = .ok bytes
        ∧ fs.Filled path
            (if path.place fs.here = source.place fs.here then [] else bytes) after := by
  simp only [copy] at copied
  split at copied
  next => cases copied
  next place found =>
      split at copied
      next => cases copied
      next => cases copied
      next bytes executable held =>
          split at copied
          next => cases copied
          next goal aimed =>
              cases copied
              have left := ((locate_eq_ok_iff fs source place).mp found).2.2
              have right := ((locate_eq_ok_iff fs path goal).mp (target_eq_ok aimed).1).2.2
              refine ⟨bytes, (read_eq_ok_iff fs source bytes).mpr ⟨_, _, found, held⟩, ?_⟩
              rw [left, right]
              exact ⟨goal, executable, (target_eq_ok aimed).1, (target_eq_ok aimed).2, rfl⟩

/-- A file put instead of another one is put where the path leads. -/
theorem filled_of_replaceFile {fs after : FileSystem} {path : Path} {bytes : List UInt8}
    (replaced : fs.replaceFile path bytes = .ok after)
    : fs.Filled path bytes after := by
  simp only [replaceFile] at replaced
  split at replaced
  · split at replaced <;> cases replaced
  · split at replaced
    next place found =>
        split at replaced
        next => cases replaced
        next free =>
            cases replaced
            exact ⟨place, false, found, free, rfl⟩
    next => cases replaced

/-- What is at each place after a file was put. -/
theorem Filled.entry? {fs after : FileSystem} {path : Path} {bytes : List UInt8}
    (filled : fs.Filled path bytes after)
    : ∃ executable, ∀ place,
        after.entry? place
          = if place = path.place fs.here then some (.file bytes executable)
            else fs.entry? place := by
  obtain ⟨goal, executable, found, free, rfl⟩ := filled
  have below : goal ≠ [] := fun root => free (by rw [root, entry?_root])
  rw [((locate_eq_ok_iff fs path goal).mp found).2.2]
  exact ⟨executable, fun place => entry?_put fs below _ place⟩

theorem Filled.here {fs after : FileSystem} {path : Path} {bytes : List UInt8}
    (filled : fs.Filled path bytes after)
    : after.here = fs.here := by
  obtain ⟨_, _, _, _, rfl⟩ := filled
  rfl

/-- The same places are directories after a file was put. -/
theorem Filled.directory_iff {fs after : FileSystem} {path : Path} {bytes : List UInt8}
    (filled : fs.Filled path bytes after) (place : Location)
    : after.entry? place = some .directory ↔ fs.entry? place = some .directory := by
  obtain ⟨executable, entries⟩ := filled.entry?
  rw [entries]
  split
  next same =>
      obtain ⟨goal, _, found, free, _⟩ := filled
      rw [same, ((locate_eq_ok_iff fs path goal).mp found).2.2]
      simp [free]
  next => rfl

theorem Filled.locate_iff {fs after : FileSystem} {path : Path} {bytes : List UInt8}
    (filled : fs.Filled path bytes after) (other : Path) (goal : Location)
    : after.locate other = .ok goal ↔ fs.locate other = .ok goal := by
  simp only [locate_eq_ok_iff, filled.here, filled.directory_iff]

/-- The file that was put is read. -/
theorem Filled.read {fs after : FileSystem} {path : Path} {bytes : List UInt8}
    (filled : fs.Filled path bytes after)
    : after.read path = .ok bytes := by
  obtain ⟨executable, entries⟩ := filled.entry?
  obtain ⟨goal, _, found, _, _⟩ := id filled
  refine (read_eq_ok_iff after path bytes).mpr
    ⟨goal, executable, (filled.locate_iff path goal).mpr found, ?_⟩
  simp [entries, ((locate_eq_ok_iff fs path goal).mp found).2.2]

/-- A file at another place is read as before. -/
theorem Filled.read_iff {fs after : FileSystem} {path other : Path} {bytes : List UInt8}
    (filled : fs.Filled path bytes after) (apart : other.place fs.here ≠ path.place fs.here)
    (found : List UInt8)
    : after.read other = .ok found ↔ fs.read other = .ok found := by
  obtain ⟨executable, entries⟩ := filled.entry?
  simp only [read_eq_ok_iff, filled.locate_iff]
  refine exists_congr fun place => exists_congr fun executable => and_congr_right fun led => ?_
  rw [entries, ← ((locate_eq_ok_iff fs other place).mp led).2.2, if_neg apart]

/-- What is read at the place of the file that was put is that file. -/
theorem Filled.eq_of_read {fs after : FileSystem} {path other : Path} {bytes found : List UInt8}
    (filled : fs.Filled path bytes after) (same : other.place fs.here = path.place fs.here)
    (read : after.read other = .ok found)
    : found = bytes := by
  obtain ⟨executable, entries⟩ := filled.entry?
  obtain ⟨place, _, led, held⟩ := (read_eq_ok_iff after other found).mp read
  have here := ((locate_eq_ok_iff after other place).mp led).2.2
  rw [filled.here, same] at here
  rw [entries, if_pos here.symm] at held
  cases held
  rfl

theorem Filled.frame {fs after : FileSystem} {path : Path} {bytes : List UInt8}
    (filled : fs.Filled path bytes after)
    : Frame (· = path.place fs.here) fs after := by
  obtain ⟨executable, entries⟩ := filled.entry?
  exact ⟨filled.here, fun place outside => .inl (by rw [entries, if_neg outside])⟩

/-- An entry that is there already is put without a change, by induction on the list. -/
theorem replace_eq_self {place : Location} {entry : Entry} {entries : List (Location × Entry)}
    (held : find? place entries = some entry)
    : replace place entry entries = entries := by
  induction entries with
  | nil => cases held
  | cons head rest ih =>
      obtain ⟨l, old⟩ := head
      simp only [find?] at held
      simp only [replace]
      split at held
      next same =>
          cases held
          simp [same]
      next other => simp [other, ih held]

/-- A file that was written is written once more without a change. -/
theorem write_write {fs after : FileSystem} {path : Path} {bytes : List UInt8}
    (written : fs.write path bytes = .ok after)
    : after.write path bytes = .ok after := by
  have filled := filled_of_write written
  simp only [write] at written
  split at written
  next place found =>
      have located := (target_eq_ok found).1
      have below : place ≠ [] := fun root => (target_eq_ok found).2 (by rw [root, entry?_root])
      have plain : endsInSlash path = false := by
        cases slash : endsInSlash path with
        | false => rfl
        | true =>
            simp only [target, slash, if_true] at found
            split at found <;> cases found
      injection written with written
      have held : after.entry? place = some (.file bytes (fs.isExecutable place)) := by
        rw [← written, entry?_put fs below, if_pos rfl]
      have again : after.target path = .ok place := by
        simp [target, plain, (filled.locate_iff path place).mpr located, held]
      have runs : after.isExecutable place = fs.isExecutable place := by
        simp only [isExecutable, held]
      simp only [write, again, runs, put]
      rw [entry?_eq_find? after below] at held
      rw [replace_eq_self held]
  next => cases written

-----------------------------------------------------------------------------------------
-- Directories are made, and places dropped
-----------------------------------------------------------------------------------------

/-- A directory is made where nothing was. -/
theorem makeDirectory_eq_ok {fs after : FileSystem} {path : Path}
    (made : fs.makeDirectory path = .ok after)
    : ∃ place,
        fs.locate (withoutSlashes path) = .ok place
        ∧ fs.entry? place = none
        ∧ after = fs.put place .directory := by
  simp only [makeDirectory] at made
  split at made
  next place found =>
      split at made
      next => cases made
      next free =>
          cases made
          exact ⟨place, found, free, rfl⟩
  next => cases made

/-- The making of a directory only adds it. -/
theorem frame_of_makeDirectory {fs after : FileSystem} {path : Path}
    (made : fs.makeDirectory path = .ok after)
    : Frame nowhere fs after := by
  obtain ⟨place, _, free, rfl⟩ := makeDirectory_eq_ok made
  have below : place ≠ [] := by
    rintro rfl
    cases free
  refine ⟨rfl, fun other _ => ?_⟩
  rw [entry?_put fs below]
  split
  next same => exact .inr ⟨same ▸ free, rfl⟩
  next => exact .inl rfl

/-- The making of a directory that may be there only adds it, however it ends. -/
theorem frame_ensureDirectory (path : Path) (fs : FileSystem)
    : Frame nowhere fs (ensureDirectory path fs).2 := by
  simp only [ensureDirectory]
  split
  next made => exact frame_of_makeDirectory made
  next => split <;> exact Frame.refl _ _

/-- The making of a chain of directories only adds some, however it ends, by induction on the
number of components.
-/
theorem frame_makeChain (fuel : Nat) (path : Path) (fs : FileSystem)
    : Frame nowhere fs (makeChain fuel path fs).2 := by
  induction fuel generalizing path fs with
  | zero => exact frame_ensureDirectory path fs
  | succ fuel ih =>
      simp only [makeChain]
      split
      · exact Frame.refl _ _
      · split
        next parent _ _ =>
            split
            next outer made =>
                have chain := ih parent fs
                rw [made] at chain
                exact chain.trans (frame_ensureDirectory path outer)
            next => exact ih parent fs
        next => exact frame_ensureDirectory path fs

theorem frame_makeDirectories (path : Path) (fs : FileSystem)
    : Frame nowhere fs (makeDirectories path fs).2 :=
  frame_makeChain _ path fs

/-- What is left when a place is dropped was there before. -/
theorem within_drop (fs : FileSystem) (target : Location) : Within (fs.drop target) fs := by
  refine ⟨rfl, fun place entry held => ?_⟩
  by_cases root : place = []
  · subst root
    exact held
  · rw [entry?_drop fs target root] at held
    split at held
    · cases held
    · exact held

/-- A place is dropped with what is below it, and nothing else. -/
theorem frame_drop (fs : FileSystem) (target : Location)
    : Frame (target <+: ·) fs (fs.drop target) := by
  refine ⟨rfl, fun place outside => .inl ?_⟩
  by_cases root : place = []
  · subst root
    rfl
  · rw [entry?_drop fs target root, if_neg outside]

end Publication.FileSystem
