import Mathlib.Data.String.Basic
import Publication.Toml.Value

/-! Tables by their keys. What stands under a key of a merged table is told by what stands under it
in the two tables, and a merged table holds its keys in order as well.
-/

namespace Publication.Toml

/-- The fields of a table have increasing keys. -/
def Increasing {α : Type} (fields : List (String × α)) : Prop :=
  fields.Pairwise fun first second => first.1 < second.1

instance {α : Type} (fields : List (String × α)) : Decidable (Increasing fields) :=
  inferInstanceAs (Decidable (List.Pairwise _ _))

/-- Each table in a value holds its keys in increasing order. -/
inductive Value.Proper : Value → Prop
  | string (text : String) : Proper (.string text)
  | integer (value : Int) : Proper (.integer value)
  | float (value : Number.Binary64) : Proper (.float value)
  | boolean (value : Bool) : Proper (.boolean value)
  | datetime (text : String) : Proper (.datetime text)
  | array {items : List Value} (inner : ∀ item ∈ items, Proper item) : Proper (.array items)
  | table {fields : List (String × Value)} (increasing : Increasing fields)
    (inner : ∀ field ∈ fields, Proper field.2)
    : Proper (.table fields)

section

variable {α : Type} {key other : String} {value : α} {fields : List (String × α)}

theorem Increasing.nodup (increasing : Increasing fields) : (fields.map (·.1)).Nodup := by
  rw [List.Nodup, List.pairwise_map]
  exact increasing.imp fun less => less.ne

-----------------------------------------------------------------------------------------
-- What stands under a key
-----------------------------------------------------------------------------------------

theorem get?_eq_none_iff : get? key fields = none ↔ key ∉ fields.map (·.1) := by
  induction fields with
  | nil => simp [get?]
  | cons field rest ih =>
      obtain ⟨own, value⟩ := field
      by_cases same : own = key
      · simp [get?, same]
      · simp [get?, same, Ne.symm same, ih]

theorem mem_of_get? (found : get? key fields = some value) : (key, value) ∈ fields := by
  induction fields with
  | nil => cases found
  | cons field rest ih =>
      obtain ⟨own, first⟩ := field
      simp only [get?] at found
      split at found
      next same =>
          cases found
          exact same ▸ List.mem_cons_self
      next => exact List.mem_cons_of_mem _ (ih found)

/-- What was put under a key stands there, and all else is as before. By induction on the fields. -/
theorem get?_put (key other : String) (value : α) (fields : List (String × α))
    : get? other (put key value fields)
      = if key = other then some value else get? other fields := by
  induction fields with
  | nil => rfl
  | cons field rest ih =>
      obtain ⟨own, old⟩ := field
      simp only [put]
      split
      next same =>
          subst same
          simp only [get?]
          split <;> rfl
      next apart =>
          split
          · rfl
          · simp only [get?, ih]
            split
            next same => rw [if_neg (fun own => apart (own.trans same.symm))]
            next => rfl

/-- A key that was put is a key, besides those that were. -/
theorem mem_keys_put
    : other ∈ (put key value fields).map (·.1) ↔ other = key ∨ other ∈ fields.map (·.1) := by
  have known := get?_put key other value fields
  rw [← not_iff_not, ← get?_eq_none_iff, known, not_or, ← get?_eq_none_iff]
  split
  next same => simp [same]
  next apart => simp [Ne.symm apart]

/-- A field is put at its place in the order, by induction on the fields. -/
theorem Increasing.put (increasing : Increasing fields) (key : String) (value : α)
    : Increasing (put key value fields) := by
  induction fields with
  | nil => exact List.pairwise_singleton _ _
  | cons field rest ih =>
      obtain ⟨own, old⟩ := field
      obtain ⟨first, others⟩ := List.pairwise_cons.mp increasing
      simp only [Toml.put]
      split
      next same =>
          subst same
          exact List.pairwise_cons.mpr ⟨first, others⟩
      next apart =>
          split
          next less =>
              refine List.pairwise_cons.mpr ⟨?_, increasing⟩
              have behind := fun field member => less.trans (first field member)
              exact List.forall_mem_cons.mpr ⟨less, behind⟩
          next beyond =>
              have behind : own < key := lt_of_le_of_ne (not_lt.mp beyond) (Ne.symm apart)
              refine List.pairwise_cons.mpr ⟨fun field member => ?_, ih others⟩
              rcases mem_keys_put.mp (List.mem_map_of_mem (f := (·.1)) member) with same | before
              · exact same ▸ behind
              · obtain ⟨known, among, same⟩ := List.mem_map.mp before
                exact same ▸ first known among

end

-----------------------------------------------------------------------------------------
-- Merged tables
-----------------------------------------------------------------------------------------

theorem merge_table_table (base overlay : List (String × Value))
    : merge (.table base) (.table overlay) = .table (mergeFields base overlay) := by
  rw [merge]

/-- A value that is no table is replaced. -/
theorem merge_of_leaf {base : Value} (leaf : ∀ fields, base ≠ .table fields) (overlay : Value)
    : merge base overlay = overlay := by
  cases base with
  | table fields => exact absurd rfl (leaf fields)
  | _ => rw [merge]; exact fun _ _ same => nomatch same

/-- A value that is no table replaces what was there. -/
theorem merge_leaf (base : Value) {overlay : Value} (leaf : ∀ fields, overlay ≠ .table fields)
    : merge base overlay = overlay := by
  cases overlay with
  | table fields => exact absurd rfl (leaf fields)
  | _ => rw [merge]; exact fun _ _ _ same => nomatch same

/-- What stands under a key of a merged table is what stands there in the overlay, laid over what
stands there in the base. By induction on the fields of the overlay.
-/
theorem get?_mergeFields {overlay : List (String × Value)} (distinct : (overlay.map (·.1)).Nodup)
    (key : String) (base : List (String × Value))
    : get? key (mergeFields base overlay)
      = match get? key overlay with
        | some value => some (((get? key base).map (merge · value)).getD value)
        | none => get? key base := by
  induction overlay generalizing base with
  | nil => rfl
  | cons field rest ih =>
      obtain ⟨own, value⟩ := field
      obtain ⟨fresh, distinct⟩ := List.nodup_cons.mp distinct
      rw [mergeFields, ih distinct]
      simp only [get?_put, get?]
      by_cases same : own = key
      · subst same
        simp only [get?_eq_none_iff.mpr fresh, if_true]
        cases get? own base <;> rfl
      · simp only [same, if_false]

/-- The keys of a merged table are those of both tables. -/
theorem mem_keys_mergeFields {key : String} {base overlay : List (String × Value)}
    : key ∈ (mergeFields base overlay).map (·.1)
      ↔ key ∈ base.map (·.1) ∨ key ∈ overlay.map (·.1) := by
  induction overlay generalizing base with
  | nil => simp [mergeFields]
  | cons field rest ih =>
      rw [mergeFields, ih, mem_keys_put, List.map_cons, List.mem_cons, or_assoc, or_left_comm]

theorem Increasing.mergeFields {base : List (String × Value)} (increasing : Increasing base)
    (overlay : List (String × Value))
    : Increasing (mergeFields base overlay) := by
  induction overlay generalizing base with
  | nil => exact increasing
  | cons field rest ih => exact ih (increasing.put _ _)

end Publication.Toml
