import Publication.Proofs.FileSystem.Replacing

/-! Files that are written through a temporary one: it is made beside the file that is to be
written, filled, and moved to its path. One that is not moved belongs to the failure, and is there
as long as that is; when the failure is let go, nothing has changed.
-/

namespace Publication.FileSystem

-----------------------------------------------------------------------------------------
-- Writing step by step
-----------------------------------------------------------------------------------------

def temporaryName (n : Nat) : String := ".tmp" ++ toString n

/-- Where the temporary file for a path goes: beside it, under a name that is free. -/
def temporaryFor (fs : FileSystem) (path : Path) : Except FileError Location :=
  match fs.locate path.directory with
  | .error e => .error e
  | .ok dir =>
      match fs.entry? dir with
      | some .directory => .ok (fs.freshPlace fun n => dir ++ [temporaryName n])
      | some (.file _ _) => .error .notDirectory
      | none => .error .notFound

/-- How the filling of a temporary file ends. -/
inductive Filling (ε : Type) where
  | whole (bytes : List UInt8)
  /-- Filling was given up when so many octets were in the file. -/
  | brokenOff (error : ε) (written : List UInt8)

/-- A file that is to be written, and what goes wrong on the disk meanwhile. -/
structure Writing (ε : Type) where
  path : Path
  filling : Filling ε
  /-- The temporary file cannot be created. -/
  creating : Option FileError
  /-- The temporary file cannot be moved to the path. -/
  moving : Option FileError
  /-- The failure that stands for a temporary file that was not created. -/
  uncreated : FileError → ε
  /-- The failure that stands for a temporary file that was not moved. -/
  unmoved : FileError → ε

/-- Why a file was not written. -/
structure Unwritten (ε : Type) where
  error : ε
  /-- The temporary file that belongs to the failure, and is there until that is let go. -/
  temporary : Option Location

/-- Lets a failure go, and with it the temporary file that belongs to it. -/
def Unwritten.release {ε : Type} (failure : Unwritten ε) (fs : FileSystem) : FileSystem :=
  match failure.temporary with
  | some place => fs.unlink place
  | none => fs

/-- Keeps of a failure no more than the error. -/
def settle {ε : Type} : Except (Unwritten ε) Unit × FileSystem → Except ε Unit × FileSystem
  | (.ok (), after) => (.ok (), after)
  | (.error failure, left) => (.error failure.error, failure.release left)

/-- Makes a temporary file, fills it and moves it. One whose filling broke off is removed; one that
was not moved is handed back with the failure.
-/
def Writing.run {ε : Type} (writing : Writing ε) (fs : FileSystem)
    : Except (Unwritten ε) Unit × FileSystem :=
  match writing.creating, fs.temporaryFor writing.path with
  | some e, _ => (.error ⟨writing.uncreated e, none⟩, fs)
  | none, .error e => (.error ⟨writing.uncreated e, none⟩, fs)
  | none, .ok temporary =>
      let created := fs.put temporary (.file [] false)
      match writing.filling with
      | .brokenOff e written =>
          (.error ⟨e, none⟩, (created.put temporary (.file written false)).unlink temporary)
      | .whole bytes =>
          let full := created.put temporary (.file bytes false)
          match writing.moving, (full.unlink temporary).replaceFile writing.path bytes with
          | some e, _ => (.error ⟨writing.unmoved e, some temporary⟩, full)
          | none, .error e => (.error ⟨writing.unmoved e, some temporary⟩, full)
          | none, .ok after => (.ok (), after)

-----------------------------------------------------------------------------------------
-- The temporary file
-----------------------------------------------------------------------------------------

section

variable {fs after : FileSystem} {path : Path} {temporary : Location}

/-- The place of a temporary file is free. -/
theorem entry?_temporaryFor (chosen : fs.temporaryFor path = .ok temporary)
    : fs.entry? temporary = none := by
  simp only [temporaryFor] at chosen
  split at chosen
  next => cases chosen
  next dir _ =>
      split at chosen
      next =>
          cases chosen
          exact fs.entry?_freshNumbered dir ".tmp"
      next => cases chosen
      next => cases chosen

/-- In a directory a temporary file can be created. -/
theorem exists_temporaryFor (directory : fs.isDirectory path.directory = true)
    : ∃ temporary, fs.temporaryFor path = .ok temporary := by
  obtain ⟨dir, led, held⟩ := (isDirectory_iff fs path.directory).mp directory
  exact ⟨fs.freshPlace fun n => dir ++ [temporaryName n], by simp only [temporaryFor, led, held]⟩

theorem within_put (free : fs.entry? temporary = none) (entry : Entry)
    : Within fs (fs.put temporary entry) where
  here := rfl
  entries place other held := by
    have below : temporary ≠ [] := by
      rintro rfl
      cases free
    have apart : place ≠ temporary := by
      rintro rfl
      cases free.symm.trans held
    rw [entry?_put fs below, if_neg apart, held]

end

-----------------------------------------------------------------------------------------
-- How writing ends
-----------------------------------------------------------------------------------------

section

variable {ε : Type} {writing : Writing ε} {fs after : FileSystem}

/-- What is there after a failure: the temporary file that belongs to it in addition, at a place
that was free, or else no more than before.
-/
structure Unwritten.Leaves (failure : Unwritten ε) (path : Path) (before after : FileSystem)
    : Prop where
  owned
    : ∀ temporary, failure.temporary = some temporary →
        before.temporaryFor path = .ok temporary
        ∧ ∃ bytes, after = before.put temporary (.file bytes false)
  bare : failure.temporary = none → after = before

/-- When a failure has been let go, nothing has changed. -/
theorem Unwritten.Leaves.release {failure : Unwritten ε} {path : Path}
    (leaves : failure.Leaves path fs after)
    : failure.release after = fs := by
  cases owner : failure.temporary with
  | none =>
      rw [Unwritten.release, owner]
      exact leaves.bare owner
  | some temporary =>
      obtain ⟨chosen, bytes, rfl⟩ := leaves.owned temporary owner
      rw [Unwritten.release, owner]
      exact unlink_put (entry?_temporaryFor chosen) _

/-- As long as a failure is there, each path leads to the file that it led to. -/
theorem Unwritten.Leaves.read {failure : Unwritten ε} {path other : Path} {bytes : List UInt8}
    (leaves : failure.Leaves path fs after) (read : fs.read other = .ok bytes)
    : after.read other = .ok bytes := by
  cases owner : failure.temporary with
  | none => rwa [leaves.bare owner]
  | some temporary =>
      obtain ⟨chosen, _, rfl⟩ := leaves.owned temporary owner
      exact (within_put (entry?_temporaryFor chosen) _).read read

/-- Writing ends in three ways: nothing is left, a temporary file belongs to the failure, or the
file is replaced.
-/
theorem Writing.run_cases (writing : Writing ε) (fs : FileSystem)
    : (∃ e, writing.run fs = (.error ⟨e, none⟩, fs))
      ∨ (∃ e temporary bytes,
          fs.temporaryFor writing.path = .ok temporary
          ∧ writing.run fs
            = (.error ⟨writing.unmoved e, some temporary⟩,
              fs.put temporary (.file bytes false)))
      ∨ ∃ bytes after,
          writing.filling = .whole bytes
          ∧ writing.moving = none
          ∧ fs.replaceFile writing.path bytes = .ok after
          ∧ writing.run fs = (.ok (), after) := by
  cases created : writing.creating with
  | some e => exact .inl ⟨writing.uncreated e, by simp only [Writing.run, created]⟩
  | none =>
      cases chosen : fs.temporaryFor writing.path with
      | error e => exact .inl ⟨writing.uncreated e, by simp only [Writing.run, created, chosen]⟩
      | ok temporary =>
          have free := entry?_temporaryFor chosen
          cases filled : writing.filling with
          | brokenOff e written =>
              refine .inl ⟨e, ?_⟩
              simp only [Writing.run, created, chosen, filled, put_put, unlink_put free]
          | whole bytes =>
              cases moved : writing.moving with
              | some e =>
                  refine .inr (.inl ⟨e, temporary, bytes, rfl, ?_⟩)
                  simp only [Writing.run, created, chosen, filled, put_put, moved]
              | none =>
                  cases replaced : fs.replaceFile writing.path bytes with
                  | error e =>
                      refine .inr (.inl ⟨e, temporary, bytes, rfl, ?_⟩)
                      simp only [Writing.run, created, chosen, filled, put_put, moved,
                        unlink_put free, replaced]
                  | ok after =>
                      refine .inr (.inr ⟨bytes, after, rfl, rfl, replaced, ?_⟩)
                      simp only [Writing.run, created, chosen, filled, put_put, moved,
                        unlink_put free, replaced]

/-- A temporary file belongs to a failure only if it was not moved. -/
theorem Writing.leaves_of_run {failure : Unwritten ε}
    (failed : writing.run fs = (.error failure, after))
    : failure.Leaves writing.path fs after
      ∧ ∀ temporary, failure.temporary = some temporary →
          ∃ e, failure.error = writing.unmoved e := by
  rcases writing.run_cases fs with
    ⟨e, ended⟩ | ⟨e, temporary, bytes, chosen, ended⟩ | ⟨_, _, _, _, _, ended⟩
  · cases ended.symm.trans failed
    refine ⟨⟨?_, fun _ => rfl⟩, ?_⟩
    · rintro _ ⟨⟩
    · rintro _ ⟨⟩
  · cases ended.symm.trans failed
    refine ⟨⟨?_, ?_⟩, fun _ _ => ⟨e, rfl⟩⟩
    · rintro _ ⟨⟩
      exact ⟨chosen, bytes, rfl⟩
    · rintro ⟨⟩
  · cases ended.symm.trans failed

/-- What was written through a temporary file was whole, and stands where the path leads. -/
theorem Writing.run_eq_ok (done : writing.run fs = (.ok (), after))
    : ∃ bytes,
        writing.filling = .whole bytes
        ∧ writing.moving = none
        ∧ fs.replaceFile writing.path bytes = .ok after := by
  rcases writing.run_cases fs with
    ⟨_, ended⟩ | ⟨_, _, _, _, ended⟩ | ⟨bytes, replaced, filled, moved, put, ended⟩
  · cases ended.symm.trans done
  · cases ended.symm.trans done
  · cases ended.symm.trans done
    exact ⟨bytes, filled, moved, put⟩

/-- If writing failed, and no more than the error is kept, nothing has changed. -/
theorem Writing.settle_run_eq_error {e : ε} (failed : settle (writing.run fs) = (.error e, after))
    : after = fs := by
  rcases ended : writing.run fs with ⟨failure | ⟨⟨⟩⟩, left⟩
  · rw [ended] at failed
    cases failed
    exact (Writing.leaves_of_run ended).1.release
  · rw [ended] at failed
    cases failed

/-- What succeeds does so whatever is kept of failures. -/
theorem settle_eq_ok_iff {ended : Except (Unwritten ε) Unit × FileSystem}
    : settle ended = (.ok (), after) ↔ ended = (.ok (), after) := by
  rcases ended with ⟨failure | ⟨⟨⟩⟩, left⟩
  · constructor
    · rintro ⟨⟩
    · rintro ⟨⟩
  · simp [settle]

/-- On a sound disk whole octets are written as if at once. -/
theorem Writing.settle_run (writing : Writing ε) {bytes : List UInt8}
    (filled : writing.filling = .whole bytes) (creates : writing.creating = none)
    (moves : writing.moving = none)
    (directory : fs.isDirectory writing.path.directory = true)
    : settle (writing.run fs)
      = match fs.replaceFile writing.path bytes with
        | .ok after => (.ok (), after)
        | .error e => (.error (writing.unmoved e), fs) := by
  obtain ⟨temporary, chosen⟩ := exists_temporaryFor directory
  have free := entry?_temporaryFor chosen
  simp only [Writing.run, creates, chosen, filled, put_put, moves, unlink_put free]
  cases fs.replaceFile writing.path bytes with
  | ok after => rfl
  | error e => simp only [settle, Unwritten.release, unlink_put free]

end

end Publication.FileSystem
