import Publication.Proofs.Catalog.Saving
import Publication.Proofs.CommandLine.CatalogChanges

/-! Commands on the file of a catalog that come to nothing: those that fail, wherever a disk
refuses, and those that find no record to remove. All files are what they were.
-/

namespace Publication.CommandLine

open Publication.Catalog

-----------------------------------------------------------------------------------------
-- Commands on a disk with faults
-----------------------------------------------------------------------------------------

/-- The words for why a catalog was not saved. -/
def unsavedMessage : Unsaved → String
  | .file e => "IO error: " ++ e.message
  | .encoder e => "JSON error: " ++ e.message

section

variable (faults : Faults)

/-- Saves a catalog, and replies with the lines about its change. -/
def savedThrough (fs : FileSystem) (catalog : Catalog) (path : Path) (lines : List String)
    : Reply × FileSystem :=
  match saveThrough faults catalog path fs with
  | (.ok (), fs) => (done lines, fs)
  | (.error e, fs) => (failed (unsavedMessage e), fs)

/-- Merges the record in a file into the catalog in another one, on a disk with faults. -/
def mergeRecordThrough (fs : FileSystem) (path recordPath : Path) : Reply × FileSystem :=
  match readRecordThrough faults fs recordPath with
  | .error e => (failed (catalogMessage e), fs)
  | .ok record =>
      match loadThrough faults fs path with
      | .error e => (failed (catalogMessage e), fs)
      | .ok catalog =>
          let catalog := catalog.merge record
          savedThrough faults fs catalog path
            (Catalog.report .merged record.url path catalog.entries.length)

/-- Removes the records with a url from the catalog in a file, on a disk with faults. -/
def removeRecordThrough (fs : FileSystem) (path : Path) (url : String) : Reply × FileSystem :=
  match loadThrough faults fs path with
  | .error e => (failed (catalogMessage e), fs)
  | .ok catalog =>
      let (removed, rest) := catalog.withdraw url
      if removed then
        savedThrough faults fs rest path
          (Catalog.report .removed url path rest.entries.length)
      else (done (Catalog.report .notFound url path rest.entries.length), fs)

end

-----------------------------------------------------------------------------------------
-- A disk without faults
-----------------------------------------------------------------------------------------

theorem savedThrough_sound (fs : FileSystem) (catalog : Catalog) (path : Path)
    (lines : List String)
    : savedThrough {} fs catalog path lines = saved fs catalog path lines := by
  rw [savedThrough, saveThrough_sound, saved]
  rcases catalog.save path fs with ⟨e | ⟨⟨⟩⟩, after⟩ <;> rfl

theorem mergeRecordThrough_sound (fs : FileSystem) (path recordPath : Path)
    : mergeRecordThrough {} fs path recordPath = mergeRecord fs path recordPath := by
  rw [mergeRecordThrough, readRecordThrough_sound rfl, loadThrough_sound rfl]
  simp only [savedThrough_sound]
  rfl

theorem removeRecordThrough_sound (fs : FileSystem) (path : Path) (url : String)
    : removeRecordThrough {} fs path url = removeRecord fs path url := by
  rw [removeRecordThrough, loadThrough_sound rfl]
  simp only [savedThrough_sound]
  rfl

-----------------------------------------------------------------------------------------
-- Commands that come to nothing
-----------------------------------------------------------------------------------------

section

variable {faults : Faults} {fs : FileSystem} {path recordPath : Path} {catalog : Catalog}
  {record : Record} {url : String} {lines : List String}

theorem exit_failed_ne_zero (message : String) : (failed message).exit ≠ 0 := Nat.one_ne_zero

theorem exit_savedThrough_iff
    : (savedThrough faults fs catalog path lines).1.exit = 0
      ↔ ∃ after, saveThrough faults catalog path fs = (.ok (), after) := by
  simp only [savedThrough]
  split
  next saved => simp [done, saved]
  next unsaved => simp [exit_failed_ne_zero, unsaved]

theorem spared_of_savedThrough (fails : (savedThrough faults fs catalog path lines).1.exit ≠ 0)
    : Spared path fs (savedThrough faults fs catalog path lines).2 := by
  simp only [savedThrough] at fails ⊢
  split
  next saved =>
      rw [saved] at fails
      exact absurd rfl fails
  next unsaved => exact spared_of_saveThrough_error unsaved

/-- A record is merged into a catalog where both are read. -/
theorem mergeRecordThrough_of_ok (read : readRecordThrough faults fs recordPath = .ok record)
    (loaded : loadThrough faults fs path = .ok catalog)
    : ∃ lines,
        mergeRecordThrough faults fs path recordPath
          = savedThrough faults fs (catalog.merge record) path lines := by
  simp only [mergeRecordThrough, read, loaded]
  exact ⟨_, rfl⟩

/-- Where a record is not read, or the catalog is not, a merge fails and changes nothing. -/
theorem mergeRecordThrough_of_error
    (unread
      : (∀ record, readRecordThrough faults fs recordPath ≠ .ok record)
        ∨ ∀ catalog, loadThrough faults fs path ≠ .ok catalog)
    : (mergeRecordThrough faults fs path recordPath).1.exit ≠ 0
      ∧ (mergeRecordThrough faults fs path recordPath).2 = fs := by
  cases read : readRecordThrough faults fs recordPath with
  | error e =>
      simp only [mergeRecordThrough, read]
      exact ⟨exit_failed_ne_zero _, trivial⟩
  | ok record =>
      cases loaded : loadThrough faults fs path with
      | error e =>
          simp only [mergeRecordThrough, read, loaded]
          exact ⟨exit_failed_ne_zero _, trivial⟩
      | ok catalog =>
          rcases unread with unread | unloaded
          · exact absurd read (unread record)
          · exact absurd loaded (unloaded catalog)

/-- A merge that fails spares the files. -/
theorem spared_of_mergeRecordThrough
    (fails : (mergeRecordThrough faults fs path recordPath).1.exit ≠ 0)
    : Spared path fs (mergeRecordThrough faults fs path recordPath).2 := by
  by_cases unread : (∀ record, readRecordThrough faults fs recordPath ≠ .ok record)
      ∨ ∀ catalog, loadThrough faults fs path ≠ .ok catalog
  · rw [(mergeRecordThrough_of_error unread).2]
    exact Spared.refl path fs
  · obtain ⟨readable, loadable⟩ := not_or.mp unread
    obtain ⟨record, read⟩ := not_forall_not.mp readable
    obtain ⟨catalog, loaded⟩ := not_forall_not.mp loadable
    obtain ⟨lines, whole⟩ := mergeRecordThrough_of_ok read loaded
    rw [whole] at fails ⊢
    exact spared_of_savedThrough fails

theorem removeRecordThrough_of_error
    (unloaded : ∀ catalog, loadThrough faults fs path ≠ .ok catalog)
    : (removeRecordThrough faults fs path url).1.exit ≠ 0
      ∧ (removeRecordThrough faults fs path url).2 = fs := by
  cases loaded : loadThrough faults fs path with
  | error e =>
      simp only [removeRecordThrough, loaded]
      exact ⟨exit_failed_ne_zero _, trivial⟩
  | ok catalog => exact absurd loaded (unloaded catalog)

/-- From a catalog that has records with a url, they are removed. -/
theorem removeRecordThrough_of_contains (loaded : loadThrough faults fs path = .ok catalog)
    (member : catalog.contains url = true)
    : removeRecordThrough faults fs path url
      = savedThrough faults fs (catalog.remove url) path
          (Catalog.report .removed url path (catalog.remove url).entries.length) := by
  have removed := (withdraw_fst_iff catalog url).mpr member
  have rest : (catalog.withdraw url).2 = catalog.remove url := rfl
  simp only [removeRecordThrough, loaded, removed, if_true, rest]

/-- Where a catalog has no record with a url, that is all there is to say. -/
theorem removeRecordThrough_of_not_contains (loaded : loadThrough faults fs path = .ok catalog)
    (other : catalog.contains url = false)
    : removeRecordThrough faults fs path url
      = (done (Catalog.report .notFound url path (catalog.remove url).entries.length), fs) := by
  have kept : (catalog.withdraw url).1 = false := by
    rw [← Bool.not_eq_true, withdraw_fst_iff, other]
    exact Bool.false_ne_true
  have rest : (catalog.withdraw url).2 = catalog.remove url := rfl
  simp only [removeRecordThrough, loaded, kept, Bool.false_eq_true, if_false, rest]

/-- What is said tells whether a record was found. -/
theorem done_removed_ne_done_notFound (url : String) (path : Path) (left size : Nat)
    : done (Catalog.report .removed url path left)
      ≠ done (Catalog.report .notFound url path size) := by
  intro same
  have texts := congrArg (fun reply => reply.output.toList.head?) same
  simp [done, textOf, Catalog.report] at texts

/-- No record is found where the catalog is read and has none. -/
theorem removeRecordThrough_notFound_iff (size : Nat)
    : (removeRecordThrough faults fs path url).1 = done (Catalog.report .notFound url path size)
      ↔ ∃ catalog,
          loadThrough faults fs path = .ok catalog
          ∧ catalog.contains url = false
          ∧ (removeRecordThrough faults fs path url).2 = fs := by
  constructor
  · intro told
    cases loaded : loadThrough faults fs path with
    | error e =>
        simp only [removeRecordThrough, loaded] at told
        exact absurd (congrArg Reply.exit told) (exit_failed_ne_zero _)
    | ok catalog =>
        cases member : catalog.contains url with
        | false =>
            refine ⟨catalog, rfl, member, ?_⟩
            rw [removeRecordThrough_of_not_contains loaded member]
        | true =>
            rw [removeRecordThrough_of_contains loaded member, savedThrough] at told
            split at told
            next => exact absurd told (done_removed_ne_done_notFound url path _ size)
            next => exact absurd (congrArg Reply.exit told) (exit_failed_ne_zero _)
  · rintro ⟨catalog, loaded, other, _⟩
    rw [removeRecordThrough_of_not_contains loaded other]
    rfl

/-- A removal that fails spares the files. -/
theorem spared_of_removeRecordThrough (fails : (removeRecordThrough faults fs path url).1.exit ≠ 0)
    : Spared path fs (removeRecordThrough faults fs path url).2 := by
  cases loaded : loadThrough faults fs path with
  | error e =>
      simp only [removeRecordThrough, loaded]
      exact Spared.refl path fs
  | ok catalog =>
      cases member : catalog.contains url with
      | false =>
          rw [removeRecordThrough_of_not_contains loaded member]
          exact Spared.refl path fs
      | true =>
          rw [removeRecordThrough_of_contains loaded member] at fails ⊢
          exact spared_of_savedThrough fails

end

/-- A command on a catalog that comes to nothing spares the files, whatever they hold and wherever a
disk refuses: a merge that fails, because the record or the catalog is not read or the catalog is
not saved, and a removal that fails or finds no record. What is not read changes nothing at all, and
neither does a removal that finds none. A catalog that is saved is in its file, and no other file
has changed. On a disk without faults the commands are those of the program.
-/
theorem failed_changes_spare_files
    : (∀ (faults : Faults) (fs : FileSystem) (path recordPath : Path),
        let command := mergeRecordThrough faults fs path recordPath
        (command.1.exit ≠ 0 → Spared path fs command.2)
        ∧ ((∀ record, readRecordThrough faults fs recordPath ≠ .ok record)
            ∨ (∀ catalog, loadThrough faults fs path ≠ .ok catalog) →
          command.1.exit ≠ 0 ∧ command.2 = fs))
      ∧ (∀ (faults : Faults) (fs : FileSystem) (path : Path) (url : String),
        let command := removeRecordThrough faults fs path url
        (command.1.exit ≠ 0 → Spared path fs command.2)
        ∧ ((∀ catalog, loadThrough faults fs path ≠ .ok catalog) →
          command.1.exit ≠ 0 ∧ command.2 = fs)
        ∧ ∀ size,
          command.1 = done (Catalog.report .notFound url path size)
          ↔ ∃ catalog,
              loadThrough faults fs path = .ok catalog
              ∧ catalog.contains url = false
              ∧ command.2 = fs)
      ∧ (∀ (faults : Faults) (catalog : Catalog) (path : Path) (fs after : FileSystem),
        (∀ e, saveThrough faults catalog path fs = (.error e, after) → Spared path fs after)
        ∧ (saveThrough faults catalog path fs = (.ok (), after) →
          after.read path = .ok (Text.utf8 catalog.toText)
          ∧ FileSystem.Frame (· = path.place fs.here) fs after))
      ∧ ∀ (fs : FileSystem) (path : Path),
        (∀ recordPath, mergeRecordThrough {} fs path recordPath = mergeRecord fs path recordPath)
        ∧ ∀ url, removeRecordThrough {} fs path url = removeRecord fs path url := by
  refine ⟨fun _ _ _ _ => ⟨spared_of_mergeRecordThrough, mergeRecordThrough_of_error⟩,
    fun _ _ _ _ => ⟨spared_of_removeRecordThrough, removeRecordThrough_of_error,
      removeRecordThrough_notFound_iff⟩,
    fun _ _ _ _ _ => ⟨fun _ => spared_of_saveThrough_error, frame_of_saveThrough⟩,
    fun fs path => ⟨mergeRecordThrough_sound fs path, removeRecordThrough_sound fs path⟩⟩

/-- A disk that is full before the line feed behind a catalog is written. -/
def fullDisk : Faults := { ending := some (.other "No space left on device") }

/-- On a full disk a merge fails, and the catalog has the octets that it had; where a record is
missing, and where there is none to remove, nothing has changed.
-/
theorem failed_changes_spare_shelf
    : (mergeRecordThrough fullDisk inkDesk ⟨"catalog.json"⟩ ⟨"ink.meta"⟩).1.exit ≠ 0
      ∧ (mergeRecordThrough fullDisk inkDesk ⟨"catalog.json"⟩ ⟨"ink.meta"⟩).2.read ⟨"catalog.json"⟩
        = .ok (Text.utf8 inkShelf.toText)
      ∧ (mergeRecordThrough {} inkDesk ⟨"catalog.json"⟩ ⟨"pen.meta"⟩).2 = inkDesk
      ∧ (removeRecordThrough fullDisk inkDesk ⟨"catalog.json"⟩ "pencil").2 = inkDesk := by
  obtain ⟨merges, removals, _, _⟩ := failed_changes_spare_files
  have note : readRecordThrough fullDisk inkDesk ⟨"ink.meta"⟩ = .ok inkNote := by
    rw [readRecordThrough_sound rfl]
    exact readRecord_eq_ok_iff.mpr ⟨Text.utf8 inkNote.toText, inkNote.toText, by rfl,
      Text.ofUtf8?_utf8 _, Record.ofText_toText inkNote⟩
  have held : inkDesk.read ⟨"catalog.json"⟩ = .ok (Text.utf8 inkShelf.toText) := by rfl
  have shelf : loadThrough fullDisk inkDesk ⟨"catalog.json"⟩ = .ok inkShelf := by
    rw [loadThrough_sound rfl]
    exact load_of_readText (FileSystem.readText_of_read held)
  obtain ⟨spared, _⟩ := merges fullDisk inkDesk ⟨"catalog.json"⟩ ⟨"ink.meta"⟩
  obtain ⟨_, unread⟩ := merges {} inkDesk ⟨"catalog.json"⟩ ⟨"pen.meta"⟩
  obtain ⟨_, _, told⟩ := removals fullDisk inkDesk ⟨"catalog.json"⟩ "pencil"
  have fails
      : (mergeRecordThrough fullDisk inkDesk ⟨"catalog.json"⟩ ⟨"ink.meta"⟩).1.exit ≠ 0 := by
    obtain ⟨lines, whole⟩ := mergeRecordThrough_of_ok note shelf
    rw [whole, ne_eq, exit_savedThrough_iff]
    rintro ⟨after, done⟩
    obtain ⟨_, ended, _⟩ := saveThrough_eq_ok done
    cases ended
  have missing (record : Record)
      : readRecordThrough {} inkDesk ⟨"pen.meta"⟩ ≠ .ok record := by
    rintro ⟨⟩
  have other : inkShelf.contains "pencil" = false := by decide
  have nothing : (removeRecordThrough fullDisk inkDesk ⟨"catalog.json"⟩ "pencil").2 = inkDesk := by
    obtain ⟨_, _, _, unchanged⟩ := (told 0).mp (by
      rw [removeRecordThrough_of_not_contains shelf other]
      rfl)
    exact unchanged
  exact ⟨fails, (spared fails).reads _ held, (unread (.inl missing)).2, nothing⟩

end Publication.CommandLine
