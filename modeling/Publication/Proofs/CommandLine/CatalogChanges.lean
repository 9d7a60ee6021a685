import Publication.CommandLine.Perform
import Publication.Proofs.Catalog.EditRuns
import Publication.Proofs.Catalog.Files

/-! The commands that change the file of a catalog. A record that is merged once more changes no
file, and one that is removed again leaves the catalog as it was without its url.
-/

namespace Publication.CommandLine

open Publication.Catalog

variable {fs : FileSystem} {path recordPath : Path} {catalog : Catalog} {record : Record}

-----------------------------------------------------------------------------------------
-- Commands as changes
-----------------------------------------------------------------------------------------

theorem saved_snd (fs : FileSystem) (catalog : Catalog) (path : Path) (lines : List String)
    : (saved fs catalog path lines).2 = (catalog.save path fs).2 := by
  simp only [saved]
  split
  next after done => rw [done]
  next e after failed => rw [failed]

theorem exit_saved_iff (fs : FileSystem) (catalog : Catalog) (path : Path) (lines : List String)
    : (saved fs catalog path lines).1.exit = 0
      ↔ ∃ after, catalog.save path fs = (.ok (), after) := by
  simp only [saved]
  split
  next after whole => simp [done, whole]
  next e after whole =>
      rw [whole]
      constructor
      · intro succeeded
        cases succeeded
      · rintro ⟨_, ⟨⟩⟩

/-- A record is merged into a catalog where both are read. -/
theorem mergeRecord_of_ok (read : readRecord fs recordPath = .ok record)
    (loaded : load fs path = .ok catalog)
    : ∃ lines, mergeRecord fs path recordPath = saved fs (catalog.merge record) path lines := by
  simp only [mergeRecord, read, loaded]
  exact ⟨_, rfl⟩

/-- A record is merged without a change where one of the two is not read, or the catalog is saved
without a change.
-/
theorem mergeRecord_eq_self
    (same
      : ∀ record catalog,
          readRecord fs recordPath = .ok record
          → load fs path = .ok catalog
          → ((catalog.merge record).save path fs).2 = fs)
    : (mergeRecord fs path recordPath).2 = fs := by
  cases read : readRecord fs recordPath with
  | error e => simp only [mergeRecord, read]
  | ok record =>
      cases loaded : load fs path with
      | error e => simp only [mergeRecord, read, loaded]
      | ok catalog =>
          obtain ⟨lines, whole⟩ := mergeRecord_of_ok read loaded
          rw [whole, saved_snd]
          exact same record catalog read loaded

/-- A record that is merged once more changes nothing, whatever came of it before. -/
theorem mergeRecord_mergeRecord (fs : FileSystem) (path recordPath : Path)
    : (mergeRecord (mergeRecord fs path recordPath).2 path recordPath).2
      = (mergeRecord fs path recordPath).2 := by
  cases read : readRecord fs recordPath with
  | error e => simp only [mergeRecord, read]
  | ok record =>
      cases loaded : load fs path with
      | error e => simp only [mergeRecord, read, loaded]
      | ok catalog =>
          obtain ⟨lines, whole⟩ := mergeRecord_of_ok read loaded
          rw [whole, saved_snd]
          rcases first : (catalog.merge record).save path fs with ⟨e | ⟨⟨⟩⟩, once⟩
          · refine mergeRecord_eq_self fun other after _ _ => ?_
            obtain ⟨e', again⟩ := save_eq_error first (after.merge other)
            rw [again]
          · refine mergeRecord_eq_self fun other after again behind => ?_
            obtain rfl := readRecord_of_save first read again
            rw [load_of_save first] at behind
            cases behind
            have twice := edit_edit catalog (.merge other)
            simp only [edit] at twice
            rw [twice, save_again first]

/-- A record is merged into a catalog whose file is there. -/
theorem exit_mergeRecord {text : String} (read : readRecord fs recordPath = .ok record)
    (loaded : load fs path = .ok catalog) (there : fs.readText path = .ok text)
    : (mergeRecord fs path recordPath).1.exit = 0 := by
  obtain ⟨lines, whole⟩ := mergeRecord_of_ok read loaded
  rw [whole, exit_saved_iff]
  exact save_of_readText there _

/-- What was merged is loaded. -/
theorem save_of_exit_mergeRecord (read : readRecord fs recordPath = .ok record)
    (loaded : load fs path = .ok catalog) (succeeded : (mergeRecord fs path recordPath).1.exit = 0)
    : (catalog.merge record).save path fs = (.ok (), (mergeRecord fs path recordPath).2) := by
  obtain ⟨lines, whole⟩ := mergeRecord_of_ok read loaded
  rw [whole] at succeeded ⊢
  obtain ⟨after, done⟩ := (exit_saved_iff fs _ path lines).mp succeeded
  rw [saved_snd, done]

theorem remove_merge (catalog : Catalog) (record : Record)
    : (catalog.merge record).remove record.url = catalog.remove record.url := by
  simp [Catalog.merge, Catalog.remove, List.filter_append, List.filter_filter]

/-- The records with a url are removed from a catalog that has some and whose file is there. -/
theorem removeRecord_of_contains {text url : String} (loaded : load fs path = .ok catalog)
    (there : fs.readText path = .ok text) (member : catalog.contains url = true)
    : (removeRecord fs path url).1.exit = 0
      ∧ load (removeRecord fs path url).2 path = .ok (catalog.remove url) := by
  have removed := (withdraw_fst_iff catalog url).mpr member
  obtain ⟨after, done⟩ := save_of_readText there (catalog.remove url)
  have rest : (catalog.withdraw url).2 = catalog.remove url := rfl
  simp only [removeRecord, loaded, removed, if_true, rest]
  rw [exit_saved_iff, saved_snd, done]
  exact ⟨⟨after, rfl⟩, load_of_save done⟩

-----------------------------------------------------------------------------------------
-- What is written reads back
-----------------------------------------------------------------------------------------

/-- What is written reads back: a table of contents, a record, and a catalog that was saved. So a
record that is merged twice leaves all files as when it is merged once. Where the catalog loads and
the record reads, the merge succeeds on a file that is there; and after a merge that succeeds the
file holds the catalog with the record, and after its removal the catalog without its url.
-/
theorem written_reads_back
    : (∀ entries : List Document.Entry, (∀ entry ∈ entries, entry.level < 256) →
        Document.Entry.listOfText (Document.Entry.listText entries) = .ok entries)
      ∧ (∀ record : Record, Record.ofText record.toText = .ok record)
      ∧ (∀ (catalog : Catalog) (path : Path) (fs after : FileSystem),
          catalog.save path fs = (.ok (), after) → load after path = .ok catalog)
      ∧ ∀ (fs : FileSystem) (path recordPath : Path),
          (mergeRecord (mergeRecord fs path recordPath).2 path recordPath).2
            = (mergeRecord fs path recordPath).2
          ∧ ∀ (catalog : Catalog) (record : Record),
              load fs path = .ok catalog
              → readRecord fs recordPath = .ok record
              → (∀ text, fs.readText path = .ok text → (mergeRecord fs path recordPath).1.exit = 0)
                ∧ ((mergeRecord fs path recordPath).1.exit = 0
                  → load (mergeRecord fs path recordPath).2 path = .ok (catalog.merge record)
                    ∧ (removeRecord (mergeRecord fs path recordPath).2 path record.url).1.exit = 0
                    ∧ load (removeRecord (mergeRecord fs path recordPath).2 path record.url).2 path
                      = .ok (catalog.remove record.url)) := by
  refine ⟨fun entries octets => Document.Entry.listOfText_listText octets, Record.ofText_toText,
    fun catalog path fs after saved => load_of_save saved, fun fs path recordPath =>
      ⟨mergeRecord_mergeRecord fs path recordPath, fun catalog record loaded read =>
        ⟨fun text there => exit_mergeRecord read loaded there, fun succeeded => ?_⟩⟩⟩
  have saved := save_of_exit_mergeRecord read loaded succeeded
  have merged := load_of_save saved
  have member : (catalog.merge record).contains record.url = true := by
    simp [contains_iff, Catalog.merge]
  have removed := removeRecord_of_contains merged (readText_of_save saved) member
  rw [remove_merge] at removed
  exact ⟨merged, removed⟩

/-- A record whose texts need every kind of care: quotes, a line feed, a control character. -/
def inkNote : Record :=
  { url := "ink", title := "Says \"so\"", subtitle := some "a\nb", imgAlt := "\x01\\",
    tags := ["é", ""] }

/-- Two records, one with the url of the other record. -/
def inkShelf : Catalog := ⟨[{ inkNote with title := "Before" }, { inkNote with url := "pen" }]⟩

/-- A directory that holds the file of a catalog and the file of a record. -/
def inkDesk : FileSystem :=
  ⟨["home"], [
    (["home"], .directory),
    (["home", "ink.meta"], .file (Text.utf8 inkNote.toText) false),
    (["home", "catalog.json"], .file (Text.utf8 inkShelf.toText) false)]⟩

theorem written_reads_back_ink
    : Document.Entry.listOfText (Document.Entry.listText [⟨2, "Says \"so\"", "says-so"⟩])
        = .ok [⟨2, "Says \"so\"", "says-so"⟩]
      ∧ Record.ofText inkNote.toText = .ok inkNote
      ∧ (∃ after,
          inkShelf.save ⟨"catalog.json"⟩ inkDesk = (.ok (), after)
          ∧ load after ⟨"catalog.json"⟩ = .ok inkShelf)
      ∧ load (mergeRecord inkDesk ⟨"catalog.json"⟩ ⟨"ink.meta"⟩).2 ⟨"catalog.json"⟩
        = .ok ⟨[{ inkNote with url := "pen" }, inkNote]⟩
      ∧ load (removeRecord (mergeRecord inkDesk ⟨"catalog.json"⟩ ⟨"ink.meta"⟩).2
          ⟨"catalog.json"⟩ "ink").2 ⟨"catalog.json"⟩
        = .ok ⟨[{ inkNote with url := "pen" }]⟩ := by
  obtain ⟨contents, records, saves, commands⟩ := written_reads_back
  have note : readRecord inkDesk ⟨"ink.meta"⟩ = .ok inkNote :=
    readRecord_eq_ok_iff.mpr ⟨Text.utf8 inkNote.toText, inkNote.toText, by rfl,
      Text.ofUtf8?_utf8 _, records inkNote⟩
  have there : inkDesk.readText ⟨"catalog.json"⟩ = .ok inkShelf.toText :=
    FileSystem.readText_of_read (by rfl)
  have shelf : load inkDesk ⟨"catalog.json"⟩ = .ok inkShelf := load_of_readText there
  obtain ⟨after, saved⟩ := save_of_readText there inkShelf
  obtain ⟨_, change⟩ := commands inkDesk ⟨"catalog.json"⟩ ⟨"ink.meta"⟩
  obtain ⟨succeeds, changed⟩ := change inkShelf inkNote shelf note
  obtain ⟨merged, _, removed⟩ := changed (succeeds _ there)
  have behind : inkShelf.merge inkNote = ⟨[{ inkNote with url := "pen" }, inkNote]⟩ := rfl
  have without : inkShelf.remove inkNote.url = ⟨[{ inkNote with url := "pen" }]⟩ := rfl
  have url : inkNote.url = "ink" := rfl
  rw [behind] at merged
  rw [without, url] at removed
  exact ⟨contents _ (by decide), records inkNote, ⟨after, saved, saves _ _ _ _ saved⟩, merged,
    removed⟩

end Publication.CommandLine
