import Publication.Proofs.Catalog.Files
import Publication.Proofs.FileSystem.Temporary
import Publication.Proofs.FileSystem.Untouched

/-! Saving a catalog through a temporary file. Whatever goes wrong on the way, no file is another
one, is gone or is there in addition; at most, directories were made where nothing was.
-/

namespace Publication.Catalog

open Publication.FileSystem (Filling Writing settle)
open Publication.Text

-----------------------------------------------------------------------------------------
-- Saving step by step
-----------------------------------------------------------------------------------------

/-- What goes wrong on a disk while a catalog is read, changed and saved. -/
structure Faults where
  /-- Files that are not read. -/
  reading : Path → Option FileError := fun _ => none
  /-- Directories that are not made, as things stand. -/
  making : FileSystem → Path → Option FileError := fun _ _ => none
  /-- The temporary file cannot be created. -/
  creating : Option FileError := none
  /-- The encoder cannot write to the temporary file. -/
  encoding : Option FileError := none
  /-- What is in the temporary file when the encoder gives up. -/
  written : List UInt8 := []
  /-- The line feed behind the catalog cannot be written. -/
  ending : Option FileError := none
  /-- The temporary file cannot be moved to the path of the catalog. -/
  moving : Option FileError := none

/-- Why a catalog was not saved. What the encoder cannot write it tells in words of its own. -/
inductive Unsaved where
  | file (error : FileError)
  | encoder (error : FileError)
deriving Repr, DecidableEq

section

variable (faults : Faults)

/-- `load`, unless the disk does not read the file. One that it does not find is as good as none. -/
def loadThrough (fs : FileSystem) (path : Path) : Except Error Catalog :=
  match faults.reading path with
  | some .notFound => .ok {}
  | some e => .error (.file e)
  | none => load fs path

/-- `readRecord`, unless the disk does not read the file. -/
def readRecordThrough (fs : FileSystem) (path : Path) : Except Error Record :=
  match faults.reading path with
  | some e => .error (.file e)
  | none => readRecord fs path

/-- Makes a directory, unless the disk refuses. -/
def makeDirectoryThrough (fs : FileSystem) (path : Path) : Except FileError FileSystem :=
  match faults.making fs path with
  | some e => .error e
  | none => fs.makeDirectory path

/-- Makes a directory unless it is there: a refusal is no failure then. -/
def ensureThrough (path : Path) : FileSystem.Task Unit := fun fs =>
  match makeDirectoryThrough faults fs path with
  | .ok made => (.ok (), made)
  | .error e => if fs.isDirectory path then (.ok (), fs) else (.error e, fs)

/-- Makes a directory and those that it is to be in, unless they are there. What was made before a
failure stays.
-/
def makeChainThrough : Nat → Path → FileSystem.Task Unit
  | 0, path => ensureThrough faults path
  | fuel + 1, path => fun fs =>
      if path.isEmpty then (.ok (), fs)
      else
        match makeDirectoryThrough faults fs path, path.parent? with
        | .error .notFound, some parent =>
            match makeChainThrough fuel parent fs with
            | (.ok (), fs) => ensureThrough faults path fs
            | failed => failed
        | _, _ => ensureThrough faults path fs

/-- Makes the directories of a path, as far as the disk lets it. -/
def makeDirectoriesThrough (path : Path) : FileSystem.Task Unit :=
  makeChainThrough faults (path.components.length + 1) path

/-- The temporary file is filled with the catalog unless the disk gives out. -/
def Faults.filling (catalog : Catalog) : Filling Unsaved :=
  match faults.encoding, faults.ending with
  | some e, _ => .brokenOff (.encoder e) faults.written
  | none, some e => .brokenOff (.file e) (utf8 catalog.toText).dropLast
  | none, none => .whole (utf8 catalog.toText)

/-- The writing of the file of a catalog. -/
def Faults.catalogWriting (catalog : Catalog) (path : Path) : Writing Unsaved where
  path := path
  filling := faults.filling catalog
  creating := faults.creating
  moving := faults.moving
  uncreated := .file
  unmoved := .file

/-- Saves a catalog: the directory is made, and the catalog is written through a temporary file in
it. If this fails, no more than the error is kept.
-/
def saveThrough (catalog : Catalog) (path : Path) (fs : FileSystem)
    : Except Unsaved Unit × FileSystem :=
  match makeDirectoriesThrough faults path.directory fs with
  | (.error e, made) => (.error (.file e), made)
  | (.ok (), made) => settle ((faults.catalogWriting catalog path).run made)

end

-----------------------------------------------------------------------------------------
-- Directories
-----------------------------------------------------------------------------------------

section

variable {faults : Faults} {fs after : FileSystem} {path : Path}

/-- A directory that a disk makes is made. -/
theorem makeDirectory_of_through (made : makeDirectoryThrough faults fs path = .ok after)
    : fs.makeDirectory path = .ok after := by
  simp only [makeDirectoryThrough] at made
  split at made
  next => cases made
  next => exact made

theorem frame_ensureThrough (faults : Faults) (path : Path) (fs : FileSystem)
    : FileSystem.Frame FileSystem.nowhere fs (ensureThrough faults path fs).2 := by
  simp only [ensureThrough]
  split
  next made => exact FileSystem.frame_of_makeDirectory (makeDirectory_of_through made)
  next => split <;> exact FileSystem.Frame.refl _ _

/-- The making of a chain of directories only adds some, wherever a disk refuses, by induction on
the number of components.
-/
theorem frame_makeChainThrough (faults : Faults) (fuel : Nat) (path : Path) (fs : FileSystem)
    : FileSystem.Frame FileSystem.nowhere fs (makeChainThrough faults fuel path fs).2 := by
  induction fuel generalizing path fs with
  | zero => exact frame_ensureThrough faults path fs
  | succ fuel ih =>
      simp only [makeChainThrough]
      split
      · exact FileSystem.Frame.refl _ _
      · split
        next parent _ _ =>
            have chain := ih parent fs
            split
            next outer made =>
                rw [made] at chain
                exact chain.trans (frame_ensureThrough faults path outer)
            next => exact chain
        next => exact frame_ensureThrough faults path fs

theorem ensureThrough_of_isDirectory (directory : fs.isDirectory path = true)
    : ensureThrough faults path fs = (.ok (), fs) := by
  simp only [ensureThrough]
  split
  next made =>
      have there := FileSystem.makeDirectory_of_isDirectory directory
      cases there.symm.trans (makeDirectory_of_through made)
  next => rw [if_pos directory]

/-- For a path without text nothing is made. -/
theorem makeChainThrough_of_isEmpty (fuel : Nat) (empty : path.isEmpty = true)
    : (makeChainThrough faults fuel path fs).2 = fs := by
  cases fuel with
  | zero =>
      simp only [makeChainThrough, ensureThrough]
      split
      next made =>
          obtain ⟨place, led, _⟩ :=
            FileSystem.makeDirectory_eq_ok (makeDirectory_of_through made)
          have filled := ((FileSystem.locate_eq_ok_iff fs _ place).mp led).1
          rw [(FileSystem.exists_text_eq_withoutSlashes path).1, empty] at filled
          cases filled
      next => split <;> rfl
  | succ fuel => simp only [makeChainThrough, empty, if_true]

/-- Where a directory is there, none is made, wherever a disk refuses: the parent is there too. -/
theorem makeChainThrough_of_isDirectory (fuel : Nat) (directory : fs.isDirectory path = true)
    : (makeChainThrough faults fuel path fs).2 = fs := by
  induction fuel generalizing path with
  | zero => rw [makeChainThrough, ensureThrough_of_isDirectory directory]
  | succ fuel ih =>
      simp only [makeChainThrough, ensureThrough_of_isDirectory directory]
      split
      · rfl
      · split
        next parent _ named =>
            -- The disk says that the parent is missing, which it is not, so it is not made either.
            have outer : (makeChainThrough faults fuel parent fs).2 = fs := by
              cases filled : parent.isEmpty with
              | true => exact makeChainThrough_of_isEmpty fuel filled
              | false =>
                  obtain ⟨place, led, _⟩ := (FileSystem.isDirectory_iff fs path).mp directory
                  exact ih (FileSystem.isDirectory_parent named filled
                    (FileSystem.locate_withoutSlashes led))
            split
            next made =>
                rw [made] at outer
                cases outer
                rw [ensureThrough_of_isDirectory directory]
            next => exact outer
        next => rfl

/-- On a disk without faults directories are made as they are. -/
theorem makeChainThrough_sound (fuel : Nat) (path : Path)
    : makeChainThrough {} fuel path = FileSystem.makeChain fuel path := by
  induction fuel generalizing path with
  | zero => rfl
  | succ fuel ih =>
      funext fs
      simp only [makeChainThrough, FileSystem.makeChain, ih]
      rfl

end

-----------------------------------------------------------------------------------------
-- Saving that fails
-----------------------------------------------------------------------------------------

section

variable {faults : Faults} {catalog : Catalog} {fs after : FileSystem} {path : Path}

/-- If saving fails, nothing is there but what was made of the directory. -/
theorem eq_of_saveThrough_error {e : Unsaved}
    (failed : saveThrough faults catalog path fs = (.error e, after))
    : after = (makeDirectoriesThrough faults path.directory fs).2 := by
  simp only [saveThrough] at failed
  split at failed
  next begun => rw [begun, (Prod.mk.inj failed).2]
  next made begun =>
      rw [begun]
      exact Writing.settle_run_eq_error failed

/-- The files after a change that came to nothing are those before it. -/
structure Spared (path : Path) (before after : FileSystem) : Prop where
  /-- Each place holds the file that it held, or none. -/
  files
    : ∀ place bytes executable,
        after.entry? place = some (.file bytes executable)
        ↔ before.entry? place = some (.file bytes executable)
  /-- All else that may have changed is that directories were made. -/
  directories
    : ∀ place, after.entry? place ≠ before.entry? place →
        before.entry? place = none ∧ after.entry? place = some .directory
  /-- The path leads to the file that it led to. -/
  reads : ∀ bytes, before.read path = .ok bytes → after.read path = .ok bytes
  /-- It leads to no other one, unless it leads up again from a directory that was missing. -/
  absent
    : before.Rooted → FileSystem.Descends path →
        ∀ bytes, after.read path = .ok bytes → before.read path = .ok bytes
  /-- Nothing at all has changed if there was the directory that the path is in. -/
  same : before.isDirectory path.directory = true → after = before

theorem Spared.refl (path : Path) (fs : FileSystem) : Spared path fs fs :=
  ⟨fun _ _ _ => .rfl, fun _ other => absurd rfl other, fun _ read => read,
    fun _ _ _ read => read, fun _ => rfl⟩

theorem spared_of_frame (frame : FileSystem.Frame FileSystem.nowhere fs after)
    (same : fs.isDirectory path.directory = true → after = fs)
    : Spared path fs after where
  files _ bytes executable := frame.file_iff id bytes executable
  directories place other := (frame.outside place id).resolve_left other
  reads _ read := frame.within.read read
  absent rooted down _ read := rooted.read_of_frame frame down read
  same := same

/-- If saving fails, the files are those that there were. -/
theorem spared_of_saveThrough_error {e : Unsaved}
    (failed : saveThrough faults catalog path fs = (.error e, after))
    : Spared path fs after := by
  obtain rfl := eq_of_saveThrough_error failed
  exact spared_of_frame (frame_makeChainThrough faults _ path.directory fs)
    (makeChainThrough_of_isDirectory _)

-----------------------------------------------------------------------------------------
-- Saving that succeeds
-----------------------------------------------------------------------------------------

/-- A temporary file that is whole holds the catalog, and was filled without a fault. -/
theorem Faults.filling_eq_whole {bytes : List UInt8}
    (filled : faults.filling catalog = .whole bytes)
    : faults.encoding = none ∧ faults.ending = none ∧ bytes = utf8 catalog.toText := by
  simp only [filling] at filled
  split at filled
  next => cases filled
  next => cases filled
  next encoded ended =>
      cases filled
      exact ⟨encoded, ended, rfl⟩

/-- What is saved through a temporary file is put where the path leads, and nothing went wrong with
that file.
-/
theorem saveThrough_eq_ok (saved : saveThrough faults catalog path fs = (.ok (), after))
    : faults.encoding = none
      ∧ faults.ending = none
      ∧ faults.moving = none
      ∧ ∃ made,
          makeDirectoriesThrough faults path.directory fs = (.ok (), made)
          ∧ made.replaceFile path (utf8 catalog.toText) = .ok after := by
  simp only [saveThrough] at saved
  split at saved
  next => cases saved
  next made begun =>
      obtain ⟨bytes, filled, still, replaced⟩ :=
        Writing.run_eq_ok (FileSystem.settle_eq_ok_iff.mp saved)
      obtain ⟨encoded, ended, rfl⟩ := Faults.filling_eq_whole filled
      exact ⟨encoded, ended, still, made, begun, replaced⟩

/-- If saving succeeds, the path leads to the catalog, and no other file has changed. -/
theorem frame_of_saveThrough (saved : saveThrough faults catalog path fs = (.ok (), after))
    : after.read path = .ok (utf8 catalog.toText)
      ∧ FileSystem.Frame (· = path.place fs.here) fs after := by
  obtain ⟨_, _, _, made, begun, replaced⟩ := saveThrough_eq_ok saved
  have filled := FileSystem.filled_of_replaceFile replaced
  have outer := frame_makeChainThrough faults (path.directory.components.length + 1)
    path.directory fs
  rw [makeDirectoriesThrough] at begun
  rw [begun] at outer
  have own := filled.frame
  rw [outer.here] at own
  exact ⟨filled.read, (outer.mono fun _ => False.elim).trans own⟩

/-- On a disk without faults saving through a temporary file is saving. -/
theorem saveThrough_sound (catalog : Catalog) (path : Path) (fs : FileSystem)
    : saveThrough {} catalog path fs
      = match catalog.save path fs with
        | (.ok (), after) => (.ok (), after)
        | (.error e, after) => (.error (.file e), after) := by
  rw [saveThrough, makeDirectoriesThrough, makeChainThrough_sound, save_apply,
    ← FileSystem.makeDirectories]
  rcases begun : FileSystem.makeDirectories path.directory fs with ⟨e | ⟨⟨⟩⟩, made⟩
  · rfl
  · have directory := FileSystem.isDirectory_of_makeDirectories
      (FileSystem.isEmpty_directory path) begun
    change settle ((Faults.catalogWriting {} catalog path).run made) = _
    rw [Writing.settle_run (Faults.catalogWriting {} catalog path) rfl rfl rfl directory]
    cases replaced : made.replaceFile path (utf8 catalog.toText) <;>
      simp only [Faults.catalogWriting, FileSystem.perform, replaced]

end

-----------------------------------------------------------------------------------------
-- Reading
-----------------------------------------------------------------------------------------

section

variable {faults : Faults} {path : Path}

theorem loadThrough_sound (sound : faults.reading path = none) (fs : FileSystem)
    : loadThrough faults fs path = load fs path := by
  rw [loadThrough, sound]

theorem readRecordThrough_sound (sound : faults.reading path = none) (fs : FileSystem)
    : readRecordThrough faults fs path = readRecord fs path := by
  rw [readRecordThrough, sound]

end

end Publication.Catalog
