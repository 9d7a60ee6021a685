import Publication.Catalog.Store
import Publication.Document.Contents.Codec
import Publication.Proofs.Json.ReadBack

/-! The texts of tables of contents, records and catalogs. Each is read back as what it was written
for; and a catalog is never taken for a record.
-/

namespace Publication

open Publication.Json

-----------------------------------------------------------------------------------------
-- Tables of contents
-----------------------------------------------------------------------------------------

namespace Document.Entry

theorem readsBack_toJson {entry : Entry} (octet : entry.level < 256)
    : ReadsBack read entry.toJson entry :=
  readsBack_tuple
    (.put (fun (e : Entry) x => { e with level := x }) (readsBack_octet octet)
    (.put (fun (e : Entry) x => { e with label := x }) (readsBack_string entry.label)
    (.put (fun (e : Entry) x => { e with id := x }) (readsBack_string entry.id)
    (.nil entry))))

/-- A table of contents is read back from its text. -/
theorem listOfText_listText {entries : List Entry} (octets : ∀ entry ∈ entries, entry.level < 256)
    : listOfText (listText entries) = .ok entries := by
  have back := readsBack_sequence fun entry member => readsBack_toJson (octets entry member)
  simpa [listOfText, listText] using back.readAll "" (.inl rfl)

end Document.Entry

-----------------------------------------------------------------------------------------
-- Records
-----------------------------------------------------------------------------------------

namespace Record

/-- A text that may be missing is read back: null is no text. -/
theorem readsBack_optional (text : Option String)
    : ReadsBack (readOption readString) (optional text) text := by
  cases text with
  | none => exact readsBack_none readString
  | some text => exact (readsBack_string text).some fun depth => by simp [write, quoted]

theorem readsBack_texts (texts : List String)
    : ReadsBack (readSequence readString) (.array (texts.map .string)) texts :=
  readsBack_sequence fun text _ => readsBack_string text

theorem distinct_fields : (fields.map (·.key)).Nodup := by decide

/-- The values of the fields of a record, in their order. -/
def values (record : Record) : List Json.Value :=
  [.string record.url, .string record.title, optional record.subtitle, optional record.img,
    .string record.imgAlt, .string record.abstract, .array (record.tags.map .string),
    .boolean record.show]

/-- A record is written with the keys by which its fields are read. -/
theorem toJson_eq (record : Record)
    : record.toJson = .object ((fields.map (·.key)).zip record.values) := rfl

/-- Each field puts its own part, and all parts make the record. -/
theorem fills_values (record : Record)
    : Fills fields { url := "", title := "" } record.values record := by
  refine .put (fun (r : Record) x => { r with url := x }) (readsBack_string record.url) ?_
  refine .put (fun (r : Record) x => { r with title := x }) (readsBack_string record.title) ?_
  refine .put (fun (r : Record) x => { r with subtitle := x })
    (readsBack_optional record.subtitle) ?_
  refine .put (fun (r : Record) x => { r with img := x }) (readsBack_optional record.img) ?_
  refine .put (fun (r : Record) x => { r with imgAlt := x }) (readsBack_string record.imgAlt) ?_
  refine .put (fun (r : Record) x => { r with abstract := x }) (readsBack_string record.abstract) ?_
  refine .put (fun (r : Record) x => { r with tags := x }) (readsBack_texts record.tags) ?_
  refine .put (fun (r : Record) x => { r with «show» := x }) (readsBack_bool record.show) ?_
  exact .nil record

theorem readsBack_toJson (record : Record) : ReadsBack read record.toJson record := by
  rw [toJson_eq]
  exact readsBack_structure "PublicationMeta" record.fills_values distinct_fields

/-- A record is read back from its text. -/
theorem ofText_toText (record : Record) : ofText record.toText = .ok record := by
  simpa [ofText, toText] using (readsBack_toJson record).readAll "" (.inl rfl)

end Record

-----------------------------------------------------------------------------------------
-- Catalogs
-----------------------------------------------------------------------------------------

namespace Catalog

/-- A catalog is read back from its text, which is never blank. -/
theorem ofText_toText (catalog : Catalog) : ofText catalog.toText = .ok catalog := by
  have back := readsBack_sequence fun record (_ : record ∈ catalog.entries) =>
    Record.readsBack_toJson record
  have read := back.readAll "\n" (.inr rfl)
  have inked : Text.allBlank catalog.toText.toList = false := by
    cases entries : catalog.entries <;>
      simp [toText, entries, pretty, write, Text.allBlank, Text.isBlank]
  rw [ofText, inked, if_neg Bool.false_ne_true, toText, read]
  rfl

/-- A catalog is no record: where a record has its url, a catalog has a record or nothing. -/
theorem ofText_toText_ne_ok (catalog : Catalog) (record : Record)
    : Record.ofText catalog.toText ≠ .ok record := by
  have stops : ∃ e, Record.read catalog.toText.toList = .error e := by
    have whole : skipSpace catalog.toText.toList = catalog.toText.toList := by
      rw [toText, pretty, String.toList_append, String.toList_ofList]
      exact ((solid_write 0 _).append _).skipSpace
    rw [Record.read, readStructure, whole, toText, pretty, String.toList_append,
      String.toList_ofList]
    cases catalog.entries with
    | nil => exact ⟨_, rfl⟩
    | cons first rest =>
        obtain ⟨body, object⟩ : ∃ body, write 1 first.toJson = '{' :: body := ⟨_, rfl⟩
        have next (more : List Char) := nextItem_first ((solid_write 1 first.toJson).append more) 1
        have brace (more : List Char) : skipSpace ('{' :: more) = '{' :: more := rfl
        simp only [object, List.cons_append] at next
        simp only [List.map_cons, write, object, List.cons_append, List.append_assoc,
          readStart_bracket, Record.fields, readValues, decide_true, next, readString, brace,
          readStart_brace, unfit]
        exact ⟨_, rfl⟩
  obtain ⟨e, stops⟩ := stops
  intro read
  rw [Record.ofText, readAll, stops] at read
  cases read

end Catalog
end Publication
