import Publication.Json.Skip

/-!
Reading structures: objects with known fields, which may also be written as sequences of the values
of their fields. Unknown fields are passed over.
-/

namespace Publication.Json

/-- A field: its key, whether it may be left out, and how its value is read into a structure. -/
structure Member (α : Type) where
  key : String
  optional : Bool
  read : α → Reader α

/-- Reads the fields of an object into a structure, up to its brace. The keys seen so far are
given. -/
def readMembers {α : Type} (fields : List (Member α)) : Nat → List String → α → Reader α
  | 0, _, _, _ => .error .unfinished
  | fuel + 1, seen, a, s =>
      match nextKey seen.isEmpty s with
      | .error e => .error e
      | .ok none =>
          match fields.find? fun field => !field.optional && !seen.contains field.key with
          | some field => .error (.mismatch (.missingField field.key))
          | none => (close '}' s).map fun rest => (a, rest)
      | .ok (some s) =>
          match readText s with
          | .error e => .error e
          | .ok (key, rest) =>
              match fields.find? (·.key = key) with
              | none =>
                  match behindColon rest with
                  | .error e => .error e
                  | .ok rest =>
                      match skipValue (2 * rest.length + 2) rest with
                      | .ok rest => readMembers fields fuel (key :: seen) a rest
                      | .error e => .error e
              | some field =>
                  if seen.contains key then .error (.mismatch (.duplicateField key))
                  else
                    match behindColon rest with
                    | .error e => .error e
                    | .ok rest =>
                        match field.read a rest with
                        | .ok (a, rest) => readMembers fields fuel (key :: seen) a rest
                        | .error e => .error e

/-- Reads the values of fields from a sequence into a structure, up to its bracket. -/
def readValues {α : Type} (wanted : String) : List (Member α) → Nat → α → Reader α
  | [], _, a, s => (close ']' s).map fun rest => (a, rest)
  | field :: fields, index, a, s =>
      match nextItem (index = 0) s with
      | .error e => .error e
      | .ok none =>
          if field.optional then (close ']' s).map fun rest => (a, rest)
          else .error (.mismatch (.length index wanted))
      | .ok (some s) =>
          match field.read a s with
          | .ok (a, rest) => readValues wanted fields (index + 1) a rest
          | .error e => .error e

/-- Reads a structure, beginning with the values that its fields have if they are left out. -/
def readStructure {α : Type} (name : String) (fields : List (Member α)) (start : α) :
    Reader α := fun s =>
  let wanted := "struct " ++ name
  match readStart (skipSpace s) with
  | .ok (.map, rest) => readMembers fields (rest.length + 1) [] start rest
  | .ok (.sequence, rest) =>
      readValues (wanted ++ " with " ++ toString fields.length ++ " elements") fields 0 start rest
  | .ok (found, _) => unfit found wanted
  | .error e => .error e

/-- Reads a tuple: a sequence of the values of all fields. -/
def readTuple {α : Type} (fields : List (Member α)) (start : α) : Reader α := fun s =>
  let wanted := "a tuple of size " ++ toString fields.length
  match readStart (skipSpace s) with
  | .ok (.sequence, rest) => readValues wanted fields 0 start rest
  | .ok (found, _) => unfit found wanted
  | .error e => .error e

end Publication.Json
