import Publication.Proofs.Toml.Merging
import Publication.Toml.Reader

/-! Values that are read from a text. Whatever is read is put under its key, at its place in the
order, so each table in such a value holds its keys in increasing order.
-/

namespace Publication.Toml

-----------------------------------------------------------------------------------------
-- Tables while they are read
-----------------------------------------------------------------------------------------

/-- Each table in an item holds its keys in increasing order. -/
inductive Item.Proper : Item → Prop
  | value {value : Value} (proper : value.Proper) : Proper (.value value)
  | table (origin : Origin) {fields : Fields} (increasing : Increasing fields)
    (inner : ∀ field ∈ fields, Proper field.2)
    : Proper (.table origin fields)
  | rows {rows : List Fields} (increasing : ∀ row ∈ rows, Increasing row)
    (inner : ∀ row ∈ rows, ∀ field ∈ row, Proper field.2)
    : Proper (.rows rows)

/-- The fields of a table that is being read, in increasing order with all below them. -/
structure Ordered (fields : Fields) : Prop where
  increasing : Increasing fields
  inner : ∀ field ∈ fields, field.2.Proper

section

variable {fields result : Fields} {key name : String} {item : Item}

theorem ordered_nil : Ordered [] := ⟨List.Pairwise.nil, List.forall_mem_nil _⟩

theorem Ordered.table (ordered : Ordered fields) (origin : Origin)
    : (Item.table origin fields).Proper :=
  .table origin ordered.increasing ordered.inner

theorem properRows {rows : List Fields} (ordered : ∀ row ∈ rows, Ordered row)
    : (Item.rows rows).Proper :=
  .rows (fun row member => (ordered row member).increasing)
    (fun row member => (ordered row member).inner)

/-- What is in a table after something was put was put, or was there before. -/
theorem mem_put {α : Type} {value : α} {fields : List (String × α)} {field : String × α}
    (member : field ∈ put key value fields)
    : field = (key, value) ∨ field ∈ fields := by
  induction fields with
  | nil => exact .inl (List.mem_singleton.mp member)
  | cons first rest ih =>
      obtain ⟨own, old⟩ := first
      simp only [put] at member
      split at member
      · rcases List.mem_cons.mp member with same | member
        · exact .inl same
        · exact .inr (List.mem_cons_of_mem _ member)
      · split at member
        · exact List.mem_cons.mp member
        · rcases List.mem_cons.mp member with same | member
          · exact .inr (same ▸ List.mem_cons_self)
          · exact (ih member).imp_right (List.mem_cons_of_mem _)

theorem Ordered.put (ordered : Ordered fields) (proper : item.Proper) (key : String)
    : Ordered (put key item fields) where
  increasing := ordered.increasing.put key item
  inner := by
    intro field member
    rcases mem_put member with rfl | member
    · exact proper
    · exact ordered.inner field member

theorem Ordered.get? (ordered : Ordered fields) (found : get? key fields = some item)
    : item.Proper :=
  ordered.inner _ (mem_of_get? found)

theorem Item.Proper.ordered {origin : Origin} (proper : (Item.table origin fields).Proper)
    : Ordered fields := by
  cases proper with
  | table _ increasing inner => exact ⟨increasing, inner⟩

theorem Item.Proper.orderedRows {rows : List Fields} (proper : (Item.rows rows).Proper)
    : ∀ row ∈ rows, Ordered row := by
  cases proper with
  | rows increasing inner => exact fun row member => ⟨increasing row member, inner row member⟩

/-- A value that is put under a dotted key keeps the order, by induction on the key. -/
theorem Ordered.assign (ordered : Ordered fields) {value : Value} (proper : value.Proper)
    {path : List String} (put : assign value key path fields = some result)
    : Ordered result := by
  induction path generalizing fields result with
  | nil =>
      simp only [Toml.assign] at put
      split at put
      · cases put
      · cases put
        exact ordered.put (.value proper) key
  | cons name path ih =>
      simp only [Toml.assign] at put
      split at put
      next =>
          obtain ⟨inner, made, rfl⟩ := Option.map_eq_some_iff.mp put
          exact ordered.put ((ih ordered_nil made).table .dotted) name
      next origin inner found =>
          split at put
          · cases put
          · obtain ⟨changed, made, rfl⟩ := Option.map_eq_some_iff.mp put
            exact ordered.put ((ih (ordered.get? found).ordered made).table origin) name
      next row rows found =>
          split at put
          · cases put
          · obtain ⟨changed, made, rfl⟩ := Option.map_eq_some_iff.mp put
            have before := List.forall_mem_cons.mp (ordered.get? found).orderedRows
            exact ordered.put
              (properRows (List.forall_mem_cons.mpr ⟨ih before.1 made, before.2⟩)) name
      next => cases put

/-- A change at a path keeps the order if it does so by itself, by induction on the path. -/
theorem Ordered.alter (ordered : Ordered fields) {change : Fields → Option Fields}
    (kept : ∀ before after, Ordered before → change before = some after → Ordered after)
    {path : List String} (altered : alter change path fields = some result)
    : Ordered result := by
  induction path generalizing fields result with
  | nil => exact kept fields result ordered altered
  | cons name path ih =>
      simp only [Toml.alter] at altered
      split at altered
      next =>
          obtain ⟨inner, made, rfl⟩ := Option.map_eq_some_iff.mp altered
          exact ordered.put ((ih ordered_nil made).table .inside) name
      next origin inner found =>
          obtain ⟨changed, made, rfl⟩ := Option.map_eq_some_iff.mp altered
          exact ordered.put ((ih (ordered.get? found).ordered made).table origin) name
      next row rows found =>
          obtain ⟨changed, made, rfl⟩ := Option.map_eq_some_iff.mp altered
          have before := List.forall_mem_cons.mp (ordered.get? found).orderedRows
          exact ordered.put
            (properRows (List.forall_mem_cons.mpr ⟨ih before.1 made, before.2⟩)) name
      next => cases altered

theorem Ordered.openTable (ordered : Ordered fields) {path : List String}
    (opened : openTable path name fields = some result)
    : Ordered result := by
  refine ordered.alter (fun before after sorted changed => ?_) opened
  split at changed
  next =>
      cases changed
      exact sorted.put (ordered_nil.table .header) name
  next inner found =>
      cases changed
      exact sorted.put ((sorted.get? found).ordered.table .header) name
  next => cases changed

theorem Ordered.openRow (ordered : Ordered fields) {path : List String}
    (opened : openRow path name fields = some result)
    : Ordered result := by
  refine ordered.alter (fun before after sorted changed => ?_) opened
  split at changed
  next =>
      cases changed
      exact sorted.put (properRows (List.forall_mem_singleton.mpr ordered_nil)) name
  next rows found =>
      cases changed
      exact sorted.put
        (properRows (List.forall_mem_cons.mpr ⟨ordered_nil, (sorted.get? found).orderedRows⟩)) name
  next => cases changed

end

-----------------------------------------------------------------------------------------
-- Items as values
-----------------------------------------------------------------------------------------

theorem fieldValues_eq_map (fields : Fields)
    : fieldValues fields = fields.map fun field => (field.1, field.2.toValue) := by
  induction fields with
  | nil => simp [fieldValues]
  | cons field rest ih => simp [fieldValues, ih]

theorem rowValues_eq_map (rows : List Fields)
    : rowValues rows = rows.map fun row => .table (fieldValues row) := by
  induction rows with
  | nil => simp [rowValues]
  | cons row rest ih => simp [rowValues, ih]

/-- Fields in order are values in order. -/
theorem properTable {fields : Fields} (increasing : Increasing fields)
    (inner : ∀ field ∈ fields, field.2.toValue.Proper)
    : (Value.table (fieldValues fields)).Proper := by
  rw [fieldValues_eq_map]
  refine .table (List.pairwise_map.mpr increasing) fun field member => ?_
  obtain ⟨item, among, rfl⟩ := List.mem_map.mp member
  exact inner item among

theorem Item.Proper.toValue {item : Item} (proper : item.Proper) : item.toValue.Proper := by
  induction proper with
  | value proper =>
      rw [Item.toValue]
      exact proper
  | table origin increasing _ inner =>
      rw [Item.toValue]
      exact properTable increasing inner
  | rows increasing _ inner =>
      rw [Item.toValue, rowValues_eq_map]
      refine .array fun value member => ?_
      obtain ⟨row, among, rfl⟩ := List.mem_map.mp (List.mem_reverse.mp member)
      exact properTable (increasing row among) (inner row among)

theorem Ordered.proper {fields : Fields} (ordered : Ordered fields)
    : (Value.table (fieldValues fields)).Proper :=
  properTable ordered.increasing fun field member => (ordered.inner field member).toValue

-----------------------------------------------------------------------------------------
-- Values that are read
-----------------------------------------------------------------------------------------

section

variable {word : List Char} {value : Value}

theorem proper_of_radix? {base : Nat} {isDigit : Char → Bool}
    (read : radix? base isDigit word = some value)
    : value.Proper := by
  simp only [radix?] at read
  split at read
  · split at read
    · cases read
      exact .integer _
    · cases read
  · cases read

theorem proper_of_floatOf {negative : Bool} {digits : List Char} {exponent : Int}
    (read : floatOf negative digits exponent = some value)
    : value.Proper := by
  simp only [floatOf] at read
  split at read
  · cases read
    exact .float _
  · split at read
    · cases read
      exact .float _
    · cases read

theorem proper_of_decimal? {negative : Bool} (read : decimal? negative word = some value)
    : value.Proper := by
  simp only [decimal?] at read
  split at read
  · cases read
  · split at read
    · cases read
    · split at read
      · obtain ⟨_, same⟩ := Option.ite_none_right_eq_some.mp read
        cases same
        exact .integer _
      · obtain ⟨_, _, read⟩ := Option.bind_eq_some_iff.mp read
        obtain ⟨_, _, read⟩ := Option.bind_eq_some_iff.mp read
        exact proper_of_floatOf read

theorem proper_of_signed? {negative : Bool} (read : signed? negative word = some value)
    : value.Proper := by
  simp only [signed?] at read
  split at read
  · cases read
    exact .float _
  · split at read
    · cases read
      exact .float _
    · exact proper_of_decimal? read

/-- A word is a number, a truth value or a time, and no table. -/
theorem proper_of_scalar? (read : scalar? word = some value) : value.Proper := by
  simp only [scalar?] at read
  split at read
  · exact proper_of_signed? read
  · exact proper_of_signed? read
  · exact proper_of_radix? read
  · exact proper_of_radix? read
  · exact proper_of_radix? read
  · split at read
    · cases read
      exact .boolean _
    · split at read
      · cases read
        exact .boolean _
      · split at read
        · cases read
          exact .datetime _
        · exact proper_of_signed? read

theorem proper_of_readScalar {s rest : List Char} (read : readScalar s = some (value, rest))
    : value.Proper := by
  have single {word rest : List Char} {found : Value × List Char}
      (read : (scalar? word).map (·, rest) = some found)
      : found.1.Proper := by
    obtain ⟨value, known, rfl⟩ := Option.map_eq_some_iff.mp read
    exact proper_of_scalar? known
  simp only [readScalar] at read
  split at read
  · split at read
    · exact single read
    · exact single read
  · exact single read

end

/-- The three readers of values keep to the order of keys, with some fuel. -/
structure Orderly (fuel : Nat) : Prop where
  value
    : ∀ {depth s value rest}, value? fuel depth s = some (value, rest) → value.Proper
  items
    : ∀ {depth done s items rest}, (∀ item ∈ done, item.Proper) →
        items? fuel depth done s = some (items, rest) → ∀ item ∈ items, item.Proper
  pairs
    : ∀ {depth fields s result rest}, Ordered fields →
        pairs? fuel depth fields s = some (result, rest) → Ordered result

/-- Without fuel nothing is read. -/
theorem orderly_zero : Orderly 0 where
  value read := nomatch read
  items _ read := nomatch read
  pairs _ read := nomatch read

section

variable {fuel : Nat} (orderly : Orderly fuel) {depth : Nat} {s rest : List Char}

include orderly

theorem Orderly.value_succ {value : Value} (read : value? (fuel + 1) depth s = some (value, rest))
    : value.Proper := by
  simp only [value?] at read
  split at read
  · split at read
    · cases read
    · obtain ⟨⟨items, rest⟩, inner, same⟩ := Option.map_eq_some_iff.mp read
      cases same
      exact .array (orderly.items (List.forall_mem_nil _) inner)
  · split at read
    · cases read
    · split at read
      · cases read
        exact .table List.Pairwise.nil (List.forall_mem_nil _)
      · obtain ⟨⟨fields, rest⟩, inner, same⟩ := Option.map_eq_some_iff.mp read
        cases same
        exact (orderly.pairs ordered_nil inner).proper
  · obtain ⟨_, _, same⟩ := Option.map_eq_some_iff.mp read
    cases same
    exact .string _
  · obtain ⟨_, _, same⟩ := Option.map_eq_some_iff.mp read
    cases same
    exact .string _
  · exact proper_of_readScalar read

theorem Orderly.items_succ {done items : List Value} (proper : ∀ item ∈ done, item.Proper)
    (read : items? (fuel + 1) depth done s = some (items, rest))
    : ∀ item ∈ items, item.Proper := by
  simp only [items?] at read
  split at read
  · cases read
    exact fun item member => proper item (List.mem_reverse.mp member)
  · obtain ⟨⟨item, rest⟩, first, read⟩ := Option.bind_eq_some_iff.mp read
    have more := List.forall_mem_cons.mpr ⟨orderly.value first, proper⟩
    simp only at read
    split at read
    · exact orderly.items more read
    · cases read
      exact fun item member => more item (List.mem_reverse.mp member)
    · cases read

theorem Orderly.pairs_succ {fields result : Fields} (ordered : Ordered fields)
    (read : pairs? (fuel + 1) depth fields s = some (result, rest))
    : Ordered result := by
  simp only [pairs?] at read
  obtain ⟨⟨key, rest⟩, _, read⟩ := Option.bind_eq_some_iff.mp read
  simp only at read
  split at read
  · obtain ⟨⟨value, rest⟩, first, read⟩ := Option.bind_eq_some_iff.mp read
    obtain ⟨more, assigned, read⟩ := Option.bind_eq_some_iff.mp read
    have sorted := ordered.assign (orderly.value first) assigned
    simp only at read
    split at read
    · exact orderly.pairs sorted read
    · cases read
      exact sorted
    · cases read
  · cases read

end

/-- By induction on the fuel, since each reader calls the others with less of it. -/
theorem orderly (fuel : Nat) : Orderly fuel := by
  induction fuel with
  | zero => exact orderly_zero
  | succ fuel ih => exact ⟨ih.value_succ, ih.items_succ, ih.pairs_succ⟩

-----------------------------------------------------------------------------------------
-- Whole texts
-----------------------------------------------------------------------------------------

section

variable {document after : Document} {s rest : List Char}

theorem ordered_of_header? (ordered : Ordered document.root)
    (read : header? document s = some (after, rest))
    : Ordered after.root := by
  simp only [header?] at read
  split at read
  · obtain ⟨⟨key, rest⟩, _, read⟩ := Option.bind_eq_some_iff.mp read
    simp only at read
    split at read
    · obtain ⟨root, opened, same⟩ := Option.map_eq_some_iff.mp read
      cases same
      exact ordered.openRow opened
    · cases read
  · obtain ⟨⟨key, rest⟩, _, read⟩ := Option.bind_eq_some_iff.mp read
    simp only at read
    split at read
    · obtain ⟨root, opened, same⟩ := Option.map_eq_some_iff.mp read
      cases same
      exact ordered.openTable opened
    · cases read
  · cases read

theorem ordered_of_field? (ordered : Ordered document.root)
    (read : field? document s = some (after, rest))
    : Ordered after.root := by
  simp only [field?] at read
  obtain ⟨⟨key, rest⟩, _, read⟩ := Option.bind_eq_some_iff.mp read
  simp only at read
  split at read
  · obtain ⟨⟨value, rest⟩, first, read⟩ := Option.bind_eq_some_iff.mp read
    obtain ⟨root, altered, same⟩ := Option.map_eq_some_iff.mp read
    cases same
    refine ordered.alter (fun before after sorted assigned => ?_) altered
    exact sorted.assign ((orderly _).value first) assigned
  · cases read

/-- Lines are read in order, by induction on the fuel. -/
theorem ordered_of_readLines {fuel : Nat} (ordered : Ordered document.root)
    (read : readLines fuel document s = some after)
    : Ordered after.root := by
  induction fuel generalizing document s with
  | zero => cases read
  | succ fuel ih =>
      simp only [readLines] at read
      split at read
      · cases read
        exact ordered
      · obtain ⟨⟨next, rest⟩, header, read⟩ := Option.bind_eq_some_iff.mp read
        obtain ⟨rest, _, read⟩ := Option.bind_eq_some_iff.mp read
        exact ih (ordered_of_header? ordered header) read
      · split at read
        · obtain ⟨rest, _, read⟩ := Option.bind_eq_some_iff.mp read
          exact ih ordered read
        · obtain ⟨⟨next, rest⟩, field, read⟩ := Option.bind_eq_some_iff.mp read
          obtain ⟨rest, _, read⟩ := Option.bind_eq_some_iff.mp read
          exact ih (ordered_of_field? ordered field) read

end

/-- A value that is read from a text holds the keys of each table in increasing order. -/
theorem proper_of_parse? {text : String} {value : Value} (read : parse? text = some value)
    : value.Proper := by
  obtain ⟨document, lines, rfl⟩ := Option.map_eq_some_iff.mp read
  exact (ordered_of_readLines ordered_nil lines).proper

end Publication.Toml
