import Mathlib.Data.List.Nodup
import Publication.Catalog.Basic

/-! Catalogs after many changes. A change drops the records with its url and may put one behind all
others, so a whole run leaves the records that it does not speak of, and behind them those of the
merges that nothing undid.
-/

namespace Publication.Catalog

/-- A change of a catalog. -/
inductive Edit where
  | merge (record : Record)
  | remove (url : String)
deriving DecidableEq

namespace Edit

/-- The url that a change is about. -/
def url : Edit → String
  | merge record => record.url
  | remove url => url

/-- The record that a change puts into a catalog. -/
def record? : Edit → Option Record
  | merge record => some record
  | remove _ => none

end Edit

/-- The catalog after a change. -/
def edit (catalog : Catalog) : Edit → Catalog
  | .merge record => catalog.merge record
  | .remove url => (catalog.withdraw url).2

/-- The catalog after changes in order. -/
def run (catalog : Catalog) (edits : List Edit) : Catalog := edits.foldl edit catalog

/-- The records of the merges that are the last change of their url, in the order of these merges.
-/
def standing : List Edit → List Record
  | [] => []
  | .merge record :: later =>
      if record.url ∈ later.map Edit.url then standing later else record :: standing later
  | .remove _ :: later => standing later

-----------------------------------------------------------------------------------------
-- One change
-----------------------------------------------------------------------------------------

/-- A change drops the records with its url, and puts its own behind the others. -/
theorem entries_edit (catalog : Catalog) (change : Edit)
    : (catalog.edit change).entries
      = catalog.entries.filter (fun r => r.url ≠ change.url) ++ change.record?.toList := by
  cases change with
  | merge record => rfl
  | remove url => exact (List.append_nil _).symm

/-- A change that is made once more changes nothing. -/
theorem edit_edit (catalog : Catalog) (change : Edit)
    : (catalog.edit change).edit change = catalog.edit change := by
  have own : change.record?.toList.filter (fun r => r.url ≠ change.url) = [] := by
    cases change <;> simp [Edit.record?, Edit.url]
  have entries : ((catalog.edit change).edit change).entries = (catalog.edit change).entries := by
    rw [entries_edit (catalog.edit change), entries_edit catalog, List.filter_append, own,
      List.append_nil, List.filter_filter]
    simp only [Bool.and_self]
  exact congrArg Catalog.mk entries

theorem contains_iff (catalog : Catalog) (url : String)
    : catalog.contains url = true ↔ url ∈ catalog.entries.map (·.url) := by
  simp [contains]

/-- Fewer records are left exactly if there were some with the url. -/
theorem withdraw_fst_iff (catalog : Catalog) (url : String)
    : (catalog.withdraw url).1 = true ↔ catalog.contains url = true := by
  have kept : (catalog.remove url).entries.length = catalog.entries.length
      ↔ ∀ r ∈ catalog.entries, r.url ≠ url := by
    simp [remove, List.length_filter_eq_length_iff]
  rw [withdraw, decide_eq_true_iff, ne_eq, kept, contains_iff]
  simp

-----------------------------------------------------------------------------------------
-- Runs of changes
-----------------------------------------------------------------------------------------

theorem run_append (catalog : Catalog) (earlier later : List Edit)
    : catalog.run (earlier ++ later) = (catalog.run earlier).run later :=
  List.foldl_append

/-- What a change puts into a catalog stands as long as no later one has its url. -/
theorem standing_cons (change : Edit) (later : List Edit)
    : standing (change :: later)
      = change.record?.toList.filter (fun r => r.url ∉ later.map Edit.url) ++ standing later := by
  cases change with
  | merge record =>
      by_cases again : record.url ∈ later.map Edit.url <;>
        simp only [standing, Edit.record?, Option.toList_some, List.filter_cons, List.filter_nil,
          again, not_true_eq_false, not_false_eq_true, decide_true, decide_false, if_true,
          Bool.false_eq_true, if_false, List.nil_append, List.cons_append]
  | remove url => rfl

/-- A record stands exactly if it was merged by the last change of its url, by induction on the
changes.
-/
theorem mem_standing_iff {edits : List Edit} {record : Record}
    : record ∈ standing edits
      ↔ ∃ earlier later,
          edits = earlier ++ .merge record :: later ∧ record.url ∉ later.map Edit.url := by
  induction edits with
  | nil => simp [standing]
  | cons change rest ih =>
      rw [standing_cons, List.mem_append, ih]
      constructor
      · rintro (own | ⟨earlier, later, rfl, last⟩)
        · obtain ⟨put, last⟩ := List.mem_filter.mp own
          cases change with
          | remove url => cases put
          | merge other =>
              obtain rfl := List.mem_singleton.mp put
              exact ⟨[], rest, rfl, of_decide_eq_true last⟩
        · exact ⟨change :: earlier, later, rfl, last⟩
      · rintro ⟨earlier, later, whole, last⟩
        cases earlier with
        | nil =>
            obtain ⟨rfl, rfl⟩ := List.cons.inj whole
            exact .inl (List.mem_filter.mpr ⟨List.mem_singleton.mpr rfl, decide_eq_true last⟩)
        | cons first earlier =>
            obtain ⟨rfl, rfl⟩ := List.cons.inj whole
            exact .inr ⟨earlier, later, rfl, last⟩

/-- The records that stand have different urls, by induction on the changes. -/
theorem nodup_urls_standing (edits : List Edit) : ((standing edits).map (·.url)).Nodup := by
  induction edits with
  | nil => exact List.nodup_nil
  | cons change rest ih =>
      cases change with
      | remove url => exact ih
      | merge record =>
          rw [standing]
          split
          · exact ih
          next last =>
              refine List.nodup_cons.mpr ⟨fun among => last ?_, ih⟩
              obtain ⟨other, member, same⟩ := List.mem_map.mp among
              obtain ⟨earlier, later, rfl, _⟩ := mem_standing_iff.mp member
              exact List.mem_map.mpr ⟨_, List.mem_append_right _ List.mem_cons_self, same⟩

/-- A run leaves the records whose url no change has, and behind them those that stand. By induction
on the changes.
-/
theorem entries_run (catalog : Catalog) (edits : List Edit)
    : (catalog.run edits).entries
      = catalog.entries.filter (fun r => r.url ∉ edits.map Edit.url) ++ standing edits := by
  induction edits generalizing catalog with
  | nil => simp [run, standing]
  | cons change rest ih =>
      have left : (catalog.entries.filter fun r => r.url ≠ change.url).filter
            (fun r => r.url ∉ rest.map Edit.url)
          = catalog.entries.filter fun r => r.url ∉ (change :: rest).map Edit.url := by
        rw [List.filter_filter]
        refine List.filter_congr fun r _ => ?_
        simp [Bool.and_comm]
      calc (catalog.run (change :: rest)).entries
          = ((catalog.edit change).run rest).entries := rfl
        _ = (catalog.edit change).entries.filter (fun r => r.url ∉ rest.map Edit.url)
              ++ standing rest := ih _
        _ = catalog.entries.filter (fun r => r.url ∉ (change :: rest).map Edit.url)
              ++ standing (change :: rest) := by
            rw [entries_edit, List.filter_append, left, standing_cons, List.append_assoc]

/-- A url that was merged occurs once at most. -/
theorem count_url_run_le_one {edits : List Edit} {record : Record}
    (merged : .merge record ∈ edits) (catalog : Catalog)
    : ((catalog.run edits).entries.map (·.url)).count record.url ≤ 1 := by
  have spoken : record.url ∈ edits.map Edit.url := List.mem_map_of_mem (f := Edit.url) merged
  have old : record.url ∉ (catalog.entries.filter fun r => r.url ∉ edits.map Edit.url).map (·.url)
      := by
    intro among
    obtain ⟨other, member, same⟩ := List.mem_map.mp among
    exact of_decide_eq_true (List.mem_filter.mp member).2 (same ▸ spoken)
  rw [entries_run, List.map_append, List.count_append, List.count_eq_zero_of_not_mem old,
    Nat.zero_add]
  exact List.nodup_iff_count_le_one.mp (nodup_urls_standing edits) record.url

/-- After any run, a catalog holds the records that no change speaks of in their order, and behind
them those that were merged by the last change of their url, in the order of these merges. So a url
that was ever merged occurs once at most. A change made once more changes nothing, and a removal
tells whether the url was there.
-/
theorem run_in_closed_form (catalog : Catalog) (edits : List Edit)
    : (catalog.run edits).entries
        = catalog.entries.filter (fun r => r.url ∉ edits.map Edit.url) ++ standing edits
      ∧ (∀ record,
          record ∈ standing edits
          ↔ ∃ earlier later,
              edits = earlier ++ .merge record :: later ∧ record.url ∉ later.map Edit.url)
      ∧ ((standing edits).map (·.url)).Nodup
      ∧ (∀ record, .merge record ∈ edits →
          ((catalog.run edits).entries.map (·.url)).count record.url ≤ 1)
      ∧ (∀ change, catalog.run (edits ++ [change, change]) = catalog.run (edits ++ [change]))
      ∧ ∀ url,
          ((catalog.run edits).withdraw url).1 = true
          ↔ url ∈ (catalog.run edits).entries.map (·.url) := by
  refine ⟨entries_run catalog edits, fun _ => mem_standing_iff, nodup_urls_standing edits,
    fun _ merged => count_url_run_le_one merged catalog, fun change => ?_, fun url => ?_⟩
  · rw [run_append, run_append]
    exact edit_edit (catalog.run edits) change
  · rw [withdraw_fst_iff, contains_iff]

/-- A record of nothing but a url and a title. -/
def titled (url title : String) : Record := { url := url, title := title }

/-- A catalog that holds a url twice. -/
def doubled : Catalog :=
  ⟨[titled "a" "one", titled "b" "two", titled "a" "three", titled "c" "four"]⟩

/-- Changes of which some undo others. -/
def changes : List Edit := [.merge (titled "d" "five"), .remove "c", .merge (titled "a" "six"),
  .remove "d", .merge (titled "a" "seven")]

/-- A url that was there twice occurs once after a merge. -/
theorem count_url_doubled
    : .merge (titled "a" "six") ∈ changes
      ∧ (doubled.run changes).entries = [titled "b" "two", titled "a" "seven"]
      ∧ ((doubled.run changes).entries.map (·.url)).count "a" ≤ 1 := by
  obtain ⟨entries, _, _, once, _⟩ := run_in_closed_form doubled changes
  have merged : .merge (titled "a" "six") ∈ changes := by decide
  exact ⟨merged, entries.trans (by decide), once _ merged⟩

end Publication.Catalog
