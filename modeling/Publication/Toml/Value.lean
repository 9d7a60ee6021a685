import Publication.Number.Binary64

/-!
Values of the configuration language TOML, and the merging of one value over another.
-/

namespace Publication.Toml

open Publication.Number

/-- A value. A table holds each key once, in increasing order. -/
inductive Value where
  | string (text : String)
  | integer (value : Int)
  | float (value : Binary64)
  | boolean (value : Bool)
  | datetime (text : String)
  | array (items : List Value)
  | table (fields : List (String × Value))
deriving Repr, Inhabited

/-- What stands under a key. -/
def get? {α : Type} (key : String) : List (String × α) → Option α
  | [] => none
  | (k, value) :: rest => if k = key then some value else get? key rest

/-- Puts a value under a key, at its place in the order, instead of what stands there. -/
def put {α : Type} (key : String) (value : α) : List (String × α) → List (String × α)
  | [] => [(key, value)]
  | (k, old) :: rest =>
      if key = k then (key, value) :: rest
      else if key < k then (key, value) :: (k, old) :: rest
      else (k, old) :: put key value rest

mutual

/-- Lays a value over another one. Tables are merged key by key; anything else is replaced. -/
def merge (base overlay : Value) : Value :=
  match base, overlay with
  | .table base, .table overlay => .table (mergeFields base overlay)
  | _, overlay => overlay

/-- Lays the fields of a table over those of another one. -/
def mergeFields (base : List (String × Value)) : List (String × Value) → List (String × Value)
  | [] => base
  | (key, value) :: rest =>
      let merged := match get? key base with
        | some old => merge old value
        | none => value
      mergeFields (put key merged base) rest

end

end Publication.Toml
