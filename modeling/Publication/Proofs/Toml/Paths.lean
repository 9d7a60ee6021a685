import Mathlib.Data.List.Infix
import Publication.Proofs.Toml.Merging

/-! Values along paths of keys. What stands at a path of a merged value is told by what stands there
in the overlay and in the base: a leaf of the overlay counts alone and hides what was below it, two
tables are joined, and what the overlay leaves alone stays. To lay the overlay over once more
changes nothing.
-/

namespace Publication.Toml

-----------------------------------------------------------------------------------------
-- Paths of keys
-----------------------------------------------------------------------------------------

/-- What stands at the end of a path of keys. Only tables have keys. -/
def Value.along? : Value → List String → Option Value
  | value, [] => some value
  | .table fields, key :: path => (get? key fields).bind fun value => value.along? path
  | _, _ :: _ => none

/-- Whether a value is a table; all others are leaves. -/
def Value.IsTable (value : Value) : Prop := ∃ fields, value = .table fields

theorem Value.ne_table {value : Value} (leaf : ¬ value.IsTable) (fields : List (String × Value))
    : value ≠ .table fields :=
  fun same => leaf ⟨fields, same⟩

theorem Value.along?_cons_of_leaf {value : Value} (leaf : ¬ value.IsTable) (key : String)
    (path : List String)
    : value.along? (key :: path) = none := by
  cases value with
  | table fields => exact absurd ⟨fields, rfl⟩ leaf
  | _ => rfl

theorem Value.along?_cons (fields : List (String × Value)) (key : String) (path : List String)
    : (Value.table fields).along? (key :: path)
      = (get? key fields).bind fun value => value.along? path :=
  rfl

/-- A path leads on from where its front leads to. -/
theorem Value.along?_append (value : Value) (front back : List String)
    : value.along? (front ++ back) = (value.along? front).bind fun inner => inner.along? back := by
  induction front generalizing value with
  | nil => rfl
  | cons key front ih =>
      cases value with
      | table fields =>
          rw [List.cons_append, along?_cons, along?_cons]
          cases get? key fields with
          | none => rfl
          | some inner => exact ih inner
      | _ => rfl

theorem Value.Proper.of_get? {fields : List (String × Value)} (proper : (Value.table fields).Proper)
    {key : String} {value : Value} (found : get? key fields = some value)
    : value.Proper := by
  cases proper with
  | table _ inner => exact inner _ (mem_of_get? found)

theorem Value.Proper.along? {value inner : Value} (proper : value.Proper) {path : List String}
    (found : value.along? path = some inner)
    : inner.Proper := by
  induction path generalizing value with
  | nil =>
      cases found
      exact proper
  | cons key path ih =>
      by_cases table : value.IsTable
      · obtain ⟨fields, rfl⟩ := table
        rw [along?_cons] at found
        obtain ⟨below, own, rest⟩ := Option.bind_eq_some_iff.mp found
        exact ih (proper.of_get? own) rest
      · rw [along?_cons_of_leaf table] at found
        cases found

theorem Value.Proper.increasing {fields : List (String × Value)}
    (proper : (Value.table fields).Proper)
    : Increasing fields := by
  cases proper with
  | table increasing _ => exact increasing

-----------------------------------------------------------------------------------------
-- Merged values along a path
-----------------------------------------------------------------------------------------

section

variable {base overlay value leaf : Value} {path front : List String}

/-- What the overlay has at a path is laid over what the base has there. By induction on the path,
which both values follow as long as both are tables.
-/
theorem along?_merge_of_some (proper : overlay.Proper) (found : overlay.along? path = some value)
    : (merge base overlay).along? path
      = some (((base.along? path).map (merge · value)).getD value) := by
  induction path generalizing base overlay with
  | nil =>
      cases found
      rfl
  | cons key path ih =>
      by_cases below : overlay.IsTable
      · obtain ⟨fields, rfl⟩ := below
        rw [Value.along?_cons] at found
        obtain ⟨inner, own, rest⟩ := Option.bind_eq_some_iff.mp found
        by_cases table : base.IsTable
        · obtain ⟨entries, rfl⟩ := table
          rw [merge_table_table, Value.along?_cons, Value.along?_cons,
            get?_mergeFields proper.increasing.nodup, own]
          cases get? key entries with
          | none => exact rest
          | some old => exact ih (proper.of_get? own) rest
        · rw [merge_of_leaf (Value.ne_table table), Value.along?_cons, own,
            Value.along?_cons_of_leaf table]
          exact rest
      · rw [Value.along?_cons_of_leaf below] at found
        cases found

/-- What the overlay does not reach stays as it is, by induction on the path. -/
theorem along?_merge_of_none (proper : overlay.Proper) (absent : overlay.along? path = none)
    (reached : ∀ front inner, front <+: path → overlay.along? front = some inner → inner.IsTable)
    : (merge base overlay).along? path = base.along? path := by
  induction path generalizing base overlay with
  | nil => cases absent
  | cons key path ih =>
      obtain ⟨fields, rfl⟩ := reached [] overlay List.nil_prefix rfl
      rw [Value.along?_cons] at absent
      by_cases table : base.IsTable
      · obtain ⟨entries, rfl⟩ := table
        rw [merge_table_table, Value.along?_cons, Value.along?_cons,
          get?_mergeFields proper.increasing.nodup]
        cases own : get? key fields with
        | none => rfl
        | some inner =>
            rw [own, Option.bind_some] at absent
            cases get? key entries with
            | none => exact absent
            | some old =>
                refine ih (proper.of_get? own) absent fun front deeper before found => ?_
                refine reached (key :: front) deeper (List.cons_prefix_cons.mpr ⟨rfl, before⟩) ?_
                rw [Value.along?_cons, own]
                exact found
      · rw [merge_of_leaf (Value.ne_table table), Value.along?_cons_of_leaf table,
          Value.along?_cons]
        exact absent

/-- A leaf of the overlay counts alone. -/
theorem along?_merge_of_leaf (proper : overlay.Proper) (found : overlay.along? path = some leaf)
    (bare : ¬ leaf.IsTable)
    : (merge base overlay).along? path = some leaf := by
  rw [along?_merge_of_some proper found]
  cases base.along? path with
  | none => rfl
  | some old => exact congrArg some (merge_leaf old (Value.ne_table bare))

/-- Below a leaf of the overlay there is nothing. -/
theorem along?_merge_below_leaf (proper : overlay.Proper) (before : front <+: path)
    (shorter : front ≠ path) (found : overlay.along? front = some leaf) (bare : ¬ leaf.IsTable)
    : (merge base overlay).along? path = none := by
  obtain ⟨back, rfl⟩ := before
  cases back with
  | nil => exact absurd (List.append_nil front).symm shorter
  | cons key rest =>
      rw [Value.along?_append, along?_merge_of_leaf proper found bare]
      exact Value.along?_cons_of_leaf bare key rest

end

-----------------------------------------------------------------------------------------
-- Merging twice
-----------------------------------------------------------------------------------------

/-- A field that stands before all others is the one that is found first. -/
theorem Increasing.get?_cons_of_lt {α : Type} {fields : List (String × α)} {key own : String}
    {value : α} (increasing : Increasing ((own, value) :: fields)) (less : key < own)
    : get? key ((own, value) :: fields) = none := by
  obtain ⟨first, _⟩ := List.pairwise_cons.mp increasing
  refine get?_eq_none_iff.mpr fun member => ?_
  rcases List.mem_cons.mp member with rfl | later
  · exact less.false
  · obtain ⟨field, among, rfl⟩ := List.mem_map.mp later
    exact (less.trans (first field among)).false

/-- Tables in order that hold the same under each key are the same, by induction on both. -/
theorem Increasing.ext {α : Type} {fields others : List (String × α)}
    (increasing : Increasing fields) (ordered : Increasing others)
    (same : ∀ key, get? key fields = get? key others)
    : fields = others := by
  induction fields generalizing others with
  | nil =>
      cases others with
      | nil => rfl
      | cons other rest => simpa [get?] using same other.1
  | cons field rest ih =>
      obtain ⟨own, value⟩ := field
      cases others with
      | nil => simpa [get?] using same own
      | cons other later =>
          obtain ⟨key, held⟩ := other
          rcases lt_trichotomy own key with less | rfl | less
          · have absent := same own
            rw [ordered.get?_cons_of_lt less] at absent
            simp [get?] at absent
          · obtain rfl : value = held := by simpa [get?] using same own
            obtain ⟨first, increasing⟩ := List.pairwise_cons.mp increasing
            obtain ⟨front, ordered⟩ := List.pairwise_cons.mp ordered
            refine congrArg _ (ih increasing ordered fun other => ?_)
            have known := same other
            simp only [get?] at known
            split at known
            next apart =>
                subst apart
                rw [get?_eq_none_iff.mpr fun member => ?_, get?_eq_none_iff.mpr fun member => ?_]
                · obtain ⟨field, among, again⟩ := List.mem_map.mp member
                  exact (front field among).ne again.symm
                · obtain ⟨field, among, again⟩ := List.mem_map.mp member
                  exact (first field among).ne again.symm
            next => exact known
          · have absent := same key
            rw [increasing.get?_cons_of_lt less] at absent
            simp [get?] at absent

/-- A value laid over itself is that value, by induction on it. -/
theorem merge_self {value : Value} (proper : value.Proper) : merge value value = value := by
  induction proper with
  | @table fields increasing inner ih =>
      refine (merge_table_table fields fields).trans (congrArg Value.table ?_)
      refine (increasing.mergeFields fields).ext increasing fun key => ?_
      rw [get?_mergeFields increasing.nodup]
      cases own : get? key fields with
      | none => rfl
      | some value => exact congrArg some (ih _ (mem_of_get? own))
  | _ => exact merge_leaf _ fun _ same => nomatch same

/-- To lay an overlay over once more changes nothing, by induction on the overlay. What it holds
under a key was laid over there before, or was put there alone.
-/
theorem merge_merge {base overlay : Value} (ordered : base.Proper) (proper : overlay.Proper)
    : merge (merge base overlay) overlay = merge base overlay := by
  induction proper generalizing base with
  | @table fields increasing inner ih =>
      by_cases table : base.IsTable
      · obtain ⟨entries, rfl⟩ := table
        have sorted := ordered.increasing.mergeFields fields
        rw [merge_table_table, merge_table_table]
        refine congrArg Value.table ((sorted.mergeFields fields).ext sorted fun key => ?_)
        rw [get?_mergeFields increasing.nodup, get?_mergeFields increasing.nodup]
        cases own : get? key fields with
        | none => rfl
        | some value =>
            have within := mem_of_get? own
            cases before : get? key entries with
            | none => exact congrArg some (merge_self (inner _ within))
            | some old => exact congrArg some (ih _ within (ordered.of_get? before))
      · rw [merge_of_leaf (Value.ne_table table)]
        exact merge_self (.table increasing inner)
  | _ =>
      refine Eq.trans (merge_leaf _ ?_) (merge_leaf base ?_).symm
      all_goals exact fun _ same => nomatch same

/-- A table laid over an empty one is that table. -/
theorem merge_empty_table {fields : List (String × Value)} (increasing : Increasing fields)
    : merge (.table []) (.table fields) = .table fields := by
  refine (merge_table_table [] fields).trans (congrArg Value.table ?_)
  refine (Increasing.mergeFields List.Pairwise.nil fields).ext increasing fun key => ?_
  rw [get?_mergeFields increasing.nodup]
  cases get? key fields <;> rfl

-----------------------------------------------------------------------------------------
-- Merged values
-----------------------------------------------------------------------------------------

/-- At each path a merged value has the leaf that the overlay has there, or the two tables joined,
or the table of the overlay if the base has none there; what the overlay does not reach is that of
the base, and below a leaf of the overlay there is nothing. The overlay counts only once, and an
empty table not at all.
-/
theorem merge_along_paths {base overlay : Value} (ordered : base.Proper) (proper : overlay.Proper)
    : (∀ path leaf, overlay.along? path = some leaf → ¬ leaf.IsTable →
        (merge base overlay).along? path = some leaf)
      ∧ (∀ path,
          overlay.along? path = none →
            (∀ front inner, front <+: path → front ≠ path → overlay.along? front = some inner →
              inner.IsTable) →
            (merge base overlay).along? path = base.along? path)
      ∧ (∀ path front leaf,
          front <+: path → front ≠ path → overlay.along? front = some leaf → ¬ leaf.IsTable →
            (merge base overlay).along? path = none)
      ∧ (∀ path entries fields,
          base.along? path = some (.table entries) → overlay.along? path = some (.table fields) →
            ∃ merged,
              (merge base overlay).along? path = some (.table merged)
              ∧ Increasing merged
              ∧ ∀ key,
                  key ∈ merged.map (·.1) ↔ key ∈ entries.map (·.1) ∨ key ∈ fields.map (·.1))
      ∧ (∀ path fields,
          overlay.along? path = some (.table fields) →
            (∀ inner, base.along? path = some inner → ¬ inner.IsTable) →
            (merge base overlay).along? path = some (.table fields))
      ∧ merge (merge base overlay) overlay = merge base overlay
      ∧ (base.IsTable → merge base (.table []) = base ∧ merge (.table []) base = base) := by
  refine ⟨?leaves, ?kept, ?hidden, ?joined, ?alone, merge_merge ordered proper, ?empty⟩
  case leaves => exact fun path leaf found bare => along?_merge_of_leaf proper found bare
  case kept =>
    intro path absent reached
    refine along?_merge_of_none proper absent fun front inner before found => ?_
    refine reached front inner before ?_ found
    rintro rfl
    rw [absent] at found
    cases found
  case hidden =>
    intro path front leaf before shorter found bare
    exact along?_merge_below_leaf proper before shorter found bare
  case joined =>
    intro path entries fields old found
    refine ⟨mergeFields entries fields, ?_, ?_, fun key => mem_keys_mergeFields⟩
    · rw [along?_merge_of_some proper found, old]
      exact congrArg some (merge_table_table entries fields)
    · exact (ordered.along? old).increasing.mergeFields fields
  case alone =>
    intro path fields found bare
    rw [along?_merge_of_some proper found]
    cases old : base.along? path with
    | none => rfl
    | some inner => exact congrArg some (merge_of_leaf (Value.ne_table (bare inner old)) _)
  case empty =>
    rintro ⟨fields, rfl⟩
    exact ⟨merge_table_table fields [], merge_empty_table ordered.increasing⟩

/-- Settings of two tables. -/
def twoTables : Value :=
  .table
    [("latex", .table [("density", .integer 440), ("typeset_args", .array [.string "-draft"])]),
      ("thumbnails", .table [("size", .integer 64)])]

/-- A changed and a new setting in one table, and a leaf in the place of the other one. -/
def coarseImages : Value :=
  .table
    [("latex", .table [("density", .integer 300), ("resize", .string "50%")]),
      ("thumbnails", .boolean false)]

theorem proper_twoTables : twoTables.Proper := by
  refine .table (by decide) (List.forall_mem_cons.mpr ⟨?_, List.forall_mem_singleton.mpr ?_⟩)
  · refine .table (by decide) (List.forall_mem_cons.mpr ⟨.integer _, ?_⟩)
    exact List.forall_mem_singleton.mpr (.array (List.forall_mem_singleton.mpr (.string _)))
  · exact .table (by decide) (List.forall_mem_singleton.mpr (.integer _))

theorem proper_coarseImages : coarseImages.Proper := by
  refine .table (by decide) (List.forall_mem_cons.mpr ⟨?_, ?_⟩)
  · refine .table (by decide) (List.forall_mem_cons.mpr ⟨.integer _, ?_⟩)
    exact List.forall_mem_singleton.mpr (.string _)
  · exact List.forall_mem_singleton.mpr (.boolean _)

/-- A setting that is changed, one that is kept, one that is hidden, and a table of both. -/
theorem merge_along_paths_coarseImages
    : twoTables.Proper
      ∧ coarseImages.Proper
      ∧ (merge twoTables coarseImages).along? ["latex", "density"] = some (.integer 300)
      ∧ (merge twoTables coarseImages).along? ["latex", "typeset_args"]
          = some (.array [.string "-draft"])
      ∧ (merge twoTables coarseImages).along? ["thumbnails", "size"] = none
      ∧ (∃ merged,
          (merge twoTables coarseImages).along? ["latex"] = some (.table merged)
          ∧ ∀ key,
              key ∈ merged.map (·.1)
                ↔ key ∈ ["density", "typeset_args"] ∨ key ∈ ["density", "resize"])
      ∧ merge (merge twoTables coarseImages) coarseImages = merge twoTables coarseImages
      ∧ merge twoTables (.table []) = twoTables := by
  obtain ⟨leaves, kept, hidden, joined, _, twice, empty⟩ :=
    merge_along_paths proper_twoTables proper_coarseImages
  refine ⟨proper_twoTables, proper_coarseImages, ?changed, ?kept, ?hidden, ?joined, twice, ?empty⟩
  case changed => exact leaves ["latex", "density"] _ rfl (by rintro ⟨fields, ⟨⟩⟩)
  case kept =>
    refine kept ["latex", "typeset_args"] rfl fun front inner before shorter found => ?_
    have fronts : front ∈ [[], ["latex"], ["latex", "typeset_args"]] :=
      (List.mem_inits _ _).mpr before
    simp only [List.mem_cons, List.not_mem_nil, or_false, shorter] at fronts
    rcases fronts with rfl | rfl <;> cases found <;> exact ⟨_, rfl⟩
  case hidden =>
    exact hidden ["thumbnails", "size"] ["thumbnails"] _ ⟨["size"], rfl⟩ (by decide) rfl
      (by rintro ⟨fields, ⟨⟩⟩)
  case joined =>
    obtain ⟨merged, found, _, keys⟩ := joined ["latex"] _ _ rfl rfl
    exact ⟨merged, found, keys⟩
  case empty => exact (empty ⟨_, rfl⟩).1

end Publication.Toml
