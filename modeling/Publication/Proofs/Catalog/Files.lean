import Publication.Proofs.Catalog.EditRuns
import Publication.Proofs.FileSystem.Replacing
import Publication.Proofs.Json.Codecs

/-! Catalogs and records in files. A catalog that was saved is loaded, so a command does to the file
of a catalog what its change does to the catalog.
-/

namespace Publication

open Publication.Text

/-- A text is read back from its octets. -/
theorem Text.ofUtf8?_utf8 (text : String) : ofUtf8? (utf8 text) = some text := by
  have same : (⟨(utf8 text).toArray⟩ : ByteArray) = text.toUTF8 := by simp [utf8]
  rw [ofUtf8?, same, String.fromUTF8?, String.toUTF8_eq_toByteArray, dif_pos text.isValidUTF8]
  rfl

theorem FileSystem.readText_of_read {fs : FileSystem} {path : Path} {text : String}
    (read : fs.read path = .ok (utf8 text))
    : fs.readText path = .ok text := by
  simp only [readText, read, ofUtf8?_utf8]

-----------------------------------------------------------------------------------------
-- Catalogs that are saved
-----------------------------------------------------------------------------------------

namespace Catalog

variable {fs after : FileSystem} {path recordPath : Path} {catalog : Catalog} {record : Record}

/-- A catalog is saved in two steps, and what was done before one failed stays done. -/
theorem save_apply (catalog : Catalog) (path : Path) (fs : FileSystem)
    : catalog.save path fs
      = match FileSystem.makeDirectories path.directory fs with
        | (.ok (), made) =>
            FileSystem.perform (fun fs => fs.replaceFile path (utf8 catalog.toText)) made
        | (.error e, made) => (.error e, made) := by
  simp only [save, bind, ExceptT.bind, ExceptT.mk, StateT.bind]
  rcases FileSystem.makeDirectories path.directory fs with ⟨e | ⟨⟨⟩⟩, made⟩ <;> rfl

theorem save_eq_ok_iff
    : catalog.save path fs = (.ok (), after)
      ↔ ∃ made,
          FileSystem.makeDirectories path.directory fs = (.ok (), made)
          ∧ made.replaceFile path (utf8 catalog.toText) = .ok after := by
  rw [save_apply]
  constructor
  · intro saved
    split at saved
    next made begun => exact ⟨made, begun, FileSystem.perform_eq_ok_iff.mp saved⟩
    next => cases saved
  · rintro ⟨made, begun, replaced⟩
    rw [begun]
    exact FileSystem.perform_eq_ok_iff.mpr replaced

theorem save_eq_error_iff {e : FileError}
    : catalog.save path fs = (.error e, after)
      ↔ FileSystem.makeDirectories path.directory fs = (.error e, after)
        ∨ (FileSystem.makeDirectories path.directory fs = (.ok (), after)
          ∧ after.replaceFile path (utf8 catalog.toText) = .error e) := by
  rw [save_apply]
  constructor
  · intro failed
    split at failed
    next made begun =>
        obtain ⟨refused, rfl⟩ := FileSystem.perform_eq_error_iff.mp failed
        exact .inr ⟨begun, refused⟩
    next begun =>
        cases failed
        exact .inl begun
  · rintro (begun | ⟨begun, refused⟩)
    · rw [begun]
    · rw [begun]
      exact FileSystem.perform_eq_error_iff.mpr ⟨refused, rfl⟩

/-- A catalog that was saved is read from its file. -/
theorem readText_of_save (saved : catalog.save path fs = (.ok (), after))
    : after.readText path = .ok catalog.toText := by
  obtain ⟨made, _, replaced⟩ := save_eq_ok_iff.mp saved
  exact FileSystem.readText_of_read (FileSystem.filled_of_replaceFile replaced).read

theorem load_of_readText (there : fs.readText path = .ok catalog.toText)
    : load fs path = .ok catalog := by
  simp only [load, there, ofText_toText]

theorem load_of_save (saved : catalog.save path fs = (.ok (), after))
    : load after path = .ok catalog :=
  load_of_readText (readText_of_save saved)

/-- A catalog is saved where a file is. -/
theorem save_of_readText {text : String} (there : fs.readText path = .ok text)
    (catalog : Catalog)
    : ∃ after, catalog.save path fs = (.ok (), after) := by
  obtain ⟨bytes, read⟩ : ∃ bytes, fs.read path = .ok bytes := by
    simp only [FileSystem.readText] at there
    split at there
    next bytes read => exact ⟨bytes, read⟩
    next => cases there
  obtain ⟨place, executable, led, held⟩ := (FileSystem.read_eq_ok_iff fs path bytes).mp read
  have free : fs.entry? place ≠ some .directory := by simp [held]
  have directory := FileSystem.isDirectory_directory led free
  exact ⟨_, save_eq_ok_iff.mpr ⟨fs, FileSystem.makeDirectories_of_isDirectory directory,
    FileSystem.replaceFile_of_locate led free _⟩⟩

/-- A catalog that was saved is saved once more without a change. -/
theorem save_again (saved : catalog.save path fs = (.ok (), after))
    : catalog.save path after = (.ok (), after) := by
  obtain ⟨made, begun, replaced⟩ := save_eq_ok_iff.mp saved
  have directory := FileSystem.isDirectory_of_makeDirectories
    (FileSystem.isEmpty_directory path) begun
  have stays := (FileSystem.filled_of_replaceFile replaced).grows.isDirectory directory
  exact save_eq_ok_iff.mpr ⟨after, FileSystem.makeDirectories_of_isDirectory stays,
    (FileSystem.replaceFile_replaceFile replaced _).trans replaced⟩

/-- Where a catalog was not saved, no other one is, and nothing changes any more. -/
theorem save_eq_error {e : FileError} (failed : catalog.save path fs = (.error e, after))
    (other : Catalog)
    : ∃ e', other.save path after = (.error e', after) := by
  rcases save_eq_error_iff.mp failed with begun | ⟨begun, refused⟩
  · obtain ⟨e', again⟩ := FileSystem.makeDirectories_eq_error begun
    exact ⟨e', save_eq_error_iff.mpr (.inl again)⟩
  · have directory := FileSystem.isDirectory_of_makeDirectories
      (FileSystem.isEmpty_directory path) begun
    exact ⟨e, save_eq_error_iff.mpr (.inr
      ⟨FileSystem.makeDirectories_of_isDirectory directory,
        FileSystem.replaceFile_eq_error refused _⟩)⟩

-----------------------------------------------------------------------------------------
-- Records beside a catalog
-----------------------------------------------------------------------------------------

theorem readRecord_eq_ok_iff
    : readRecord fs recordPath = .ok record
      ↔ ∃ bytes text,
          fs.read recordPath = .ok bytes
          ∧ ofUtf8? bytes = some text
          ∧ Record.ofText text = .ok record := by
  simp only [readRecord, FileSystem.readText]
  cases read : fs.read recordPath with
  | error e => simp
  | ok bytes =>
      cases decoded : ofUtf8? bytes with
      | none => simp [decoded]
      | some text =>
          cases found : Record.ofText text <;> simp [decoded, found]

/-- A record that is read beside a catalog that was saved is the one that was read before: what
stands in the place of the catalog is none.
-/
theorem readRecord_of_save {other : Record} (saved : catalog.save path fs = (.ok (), after))
    (before : readRecord fs recordPath = .ok record)
    (behind : readRecord after recordPath = .ok other)
    : other = record := by
  obtain ⟨made, begun, replaced⟩ := save_eq_ok_iff.mp saved
  have within : FileSystem.Within fs made := by
    have frame := FileSystem.frame_makeDirectories path.directory fs
    rw [begun] at frame
    exact frame.within
  have filled := FileSystem.filled_of_replaceFile replaced
  obtain ⟨old, _, read, decoded, found⟩ := readRecord_eq_ok_iff.mp before
  obtain ⟨new, text, again, same, kept⟩ := readRecord_eq_ok_iff.mp behind
  by_cases place : recordPath.place made.here = path.place made.here
  · rw [filled.eq_of_read place again, ofUtf8?_utf8] at same
    cases same
    exact absurd kept (ofText_toText_ne_ok catalog other)
  · have still := (filled.read_iff place old).mpr (within.read read)
    rw [again] at still
    cases still
    rw [decoded] at same
    cases same
    rw [found] at kept
    cases kept
    rfl

end Catalog
end Publication
