import Publication.Header
import Publication.Proofs.Text.Words
import Publication.Proofs.Toml.Merging

/-! Values of a header. A value that is pushed stands behind the others of its key, whatever the
case of its letters, and all other keys keep theirs.
-/

namespace Publication.Header

open Publication.Text

theorem normalKey_normalKey (key : String) : normalKey (normalKey key) = normalKey key := by
  simp only [normalKey, String.toList_ofList, List.map_map, Function.comp_def, toLower_toLower]

/-- The fields of a header have increasing keys. -/
def Ordered (header : Header) : Prop := Toml.Increasing header.fields

theorem ordered_empty : Ordered empty := List.Pairwise.nil

theorem values_eq (header : Header) (key : String)
    : header.values key = (Toml.get? (normalKey key) header.fields).getD [] := by
  have found (fields : List (String × List String))
      : (fields.find? (·.1 = normalKey key)).map (·.2) = Toml.get? (normalKey key) fields := by
    induction fields with
    | nil => rfl
    | cons field rest ih =>
        by_cases same : field.1 = normalKey key <;> simp [Toml.get?, same, ih]
  rw [values, found]

/-- A value is put behind those that stand under its key, by induction on the fields. A key that is
put before another one has no values, since the keys increase.
-/
theorem insert_eq_put {fields : List (String × List String)} (increasing : Toml.Increasing fields)
    (key value : String)
    : insert key value fields
        = Toml.put key ((Toml.get? key fields).getD [] ++ [value]) fields := by
  induction fields with
  | nil => rfl
  | cons field rest ih =>
      obtain ⟨own, values⟩ := field
      obtain ⟨first, others⟩ := List.pairwise_cons.mp increasing
      simp only [insert, Toml.put, Toml.get?]
      split
      next same => simp [same]
      next apart =>
          rw [if_neg (Ne.symm apart)]
          split
          next less =>
              have absent : key ∉ rest.map (·.1) := by
                intro member
                obtain ⟨later, among, same⟩ := List.mem_map.mp member
                exact (less.trans (first later among)).ne same.symm
              rw [Toml.get?_eq_none_iff.mpr absent]
              rfl
          next => rw [ih others]

section

variable {header : Header}

theorem push_eq (ordered : header.Ordered) (key value : String)
    : header.push key value
      = ⟨Toml.put (normalKey key) (header.values key ++ [value]) header.fields⟩ := by
  rw [push, insert_eq_put ordered, values_eq]

theorem Ordered.push (ordered : header.Ordered) (key value : String)
    : (header.push key value).Ordered := by
  rw [push_eq ordered]
  exact Toml.Increasing.put ordered _ _

/-- A value that is pushed stands behind the others of its key, and all other keys keep theirs. -/
theorem values_push (ordered : header.Ordered) (key value other : String)
    : (header.push key value).values other
      = header.values other ++ if normalKey key = normalKey other then [value] else [] := by
  rw [push_eq ordered, values_eq, Toml.get?_put]
  by_cases same : normalKey key = normalKey other
  · rw [if_pos same, if_pos same, values_eq, values_eq, same]
    rfl
  · rw [if_neg same, if_neg same, ← values_eq, List.append_nil]

end

/-- Pushes values one after the other. -/
def pushAll (header : Header) (fields : List (String × String)) : Header :=
  fields.foldl (fun header field => header.push field.1 field.2) header

theorem pushAll_append (header : Header) (front back : List (String × String))
    : header.pushAll (front ++ back) = (header.pushAll front).pushAll back :=
  List.foldl_append

/-- Behind the values of a key stand those that were pushed under it, by induction on them. -/
theorem values_pushAll {header : Header} (ordered : header.Ordered)
    (fields : List (String × String)) (key : String)
    : (header.pushAll fields).values key
      = header.values key
        ++ (fields.filter fun field => normalKey field.1 = normalKey key).map (·.2) := by
  induction fields generalizing header with
  | nil => simp [pushAll]
  | cons field rest ih =>
      have behind := ih (ordered.push field.1 field.2)
      rw [values_push ordered] at behind
      refine behind.trans ?_
      by_cases same : normalKey field.1 = normalKey key <;> simp [same]

end Publication.Header
