import Publication.Toml.Value

/-!
Tables while a text is read. A table may be added to only in ways that its origin allows, and no key
is given twice.
-/

namespace Publication.Toml

/-- What brought a table about. -/
inductive Origin where
  /-- A header of its own. -/
  | header
  /-- The header of a table inside it. -/
  | inside
  /-- A dotted key. -/
  | dotted
deriving Repr, DecidableEq

/-- What stands under a key. -/
inductive Item where
  | value (value : Value)
  | table (origin : Origin) (fields : List (String × Item))
  /-- Tables under one repeated header, the latest first. -/
  | rows (rows : List (List (String × Item)))
deriving Inhabited

/-- The fields of a table that is being read. -/
abbrev Fields := List (String × Item)

mutual

def Item.toValue : Item → Value
  | .value value => value
  | .table _ fields => .table (fieldValues fields)
  | .rows rows => .array (rowValues rows).reverse

def fieldValues : List (String × Item) → List (String × Value)
  | [] => []
  | (key, item) :: rest => (key, item.toValue) :: fieldValues rest

def rowValues : List (List (String × Item)) → List Value
  | [] => []
  | row :: rest => .table (fieldValues row) :: rowValues rest

end

/-- Puts a value under a dotted key: the names before the last one, and the last one. -/
def assign (value : Value) (key : String) : List String → Fields → Option Fields
  | [], fields => if (get? key fields).isSome then none else some (put key (.value value) fields)
  | name :: path, fields =>
      match get? name fields with
      | none => (assign value key path []).map fun inner => put name (.table .dotted inner) fields
      | some (.table origin inner) =>
          if origin = .header || (path.isEmpty && origin ≠ .dotted) then none
          else
            (assign value key path inner).map fun inner => put name (.table origin inner) fields
      | some (.rows (row :: rows)) =>
          if path.isEmpty then none
          else (assign value key path row).map fun row => put name (.rows (row :: rows)) fields
      | some _ => none

/-- Changes the fields of the table at a path, which headers lead through. -/
def alter (change : Fields → Option Fields) : List String → Fields → Option Fields
  | [], fields => change fields
  | name :: path, fields =>
      match get? name fields with
      | none => (alter change path []).map fun inner => put name (.table .inside inner) fields
      | some (.table origin inner) =>
          (alter change path inner).map fun inner => put name (.table origin inner) fields
      | some (.rows (row :: rows)) =>
          (alter change path row).map fun row => put name (.rows (row :: rows)) fields
      | some _ => none

/-- Opens a table by its header: the names before the last one, and the last one. -/
def openTable (path : List String) (name : String) (fields : Fields) : Option Fields :=
  alter (fun fields =>
    match get? name fields with
    | none => some (put name (.table .header []) fields)
    | some (.table .inside inner) => some (put name (.table .header inner) fields)
    | some _ => none) path fields

/-- Opens a further row by its header. -/
def openRow (path : List String) (name : String) (fields : Fields) : Option Fields :=
  alter (fun fields =>
    match get? name fields with
    | none => some (put name (.rows [[]]) fields)
    | some (.rows rows) => some (put name (.rows ([] :: rows)) fields)
    | some _ => none) path fields

end Publication.Toml
