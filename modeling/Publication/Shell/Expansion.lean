import Publication.Shell.Arithmetic
import Publication.Shell.Pattern
import Publication.Shell.Syntax

/-!
Expansion: the fields that a word becomes when the values of its pieces are known. A value that is
not quoted is split at its blanks.
-/

namespace Publication.Shell

/-- What the parameters of a script stand for. -/
structure Scope where
  /-- The name that the script was called by. -/
  script : String
  arguments : List String
  bindings : List (String × String) := []
  /-- How the last command ended. -/
  status : Nat := 0

namespace Scope

/-- The number of the running script, as it is written. It only serves to name it in a `kill`. -/
def self : String := "1000"

/-- The value of a variable. -/
def valueOf? (scope : Scope) (name : String) : Option String :=
  (scope.bindings.find? (·.1 = name)).map (·.2)

/-- Gives a variable a value. -/
def assign (scope : Scope) (name value : String) : Scope :=
  { scope with bindings := (name, value) :: scope.bindings.filter (·.1 ≠ name) }

/-- Takes the value of a variable away. -/
def forget (scope : Scope) (name : String) : Scope :=
  { scope with bindings := scope.bindings.filter (·.1 ≠ name) }

/-- The value of a parameter. -/
def parameter? (scope : Scope) (name : String) : Option String :=
  match name with
  | "#" => some (toString scope.arguments.length)
  | "?" => some (toString scope.status)
  | "$" => some self
  | "@" | "*" => some (String.intercalate " " scope.arguments)
  | "!" | "-" => some ""
  | _ =>
      match name.toNat? with
      | some 0 => some scope.script
      | some (n + 1) => scope.arguments[n]?
      | none => scope.valueOf? name

/-- Whether a value counts as missing. -/
def isMissing (emptyCounts : Bool) : Option String → Bool
  | none => true
  | some value => emptyCounts && value.isEmpty

/-- What a selection takes of a parameter. A word that stands instead of a value is taken as it is
written, but for a parameter that it consists of. -/
def select (scope : Scope) (name : String) (selection : Selection) : String :=
  let value := scope.parameter? name
  let text := value.getD ""
  let substitute (word : String) : String :=
    match word.toList with
    | '$' :: inner => (scope.parameter? (String.ofList inner)).getD ""
    | _ => word
  match selection with
  | .whole => text
  | .length => toString text.length
  | .fallback emptyCounts word => if isMissing emptyCounts value then substitute word else text
  | .instead emptyCounts word => if isMissing emptyCounts value then "" else substitute word
  | .withoutStart longest pattern =>
      String.ofList (withoutStart longest (substitute pattern).toList text.toList)
  | .withoutEnd longest pattern =>
      String.ofList (withoutEnd longest (substitute pattern).toList text.toList)

/-- The value of an integer expression. The parameters with a dollar sign are put in first. -/
def arithmetic? (scope : Scope) (expression : String) : Option Int :=
  let rec insert : Nat → List Char → List Char
    | fuel + 1, '$' :: rest =>
        match rest with
        | c :: rest =>
            if c.isDigit || c ∈ ['#', '?'] then
              ((scope.parameter? c.toString).getD "").toList ++ insert fuel rest
            else c :: insert fuel rest
        | [] => []
    | fuel + 1, c :: rest => c :: insert fuel rest
    | _, _ => []
  let text := expression.toList
  evaluate? (fun name => (scope.valueOf? name).getD "") (insert text.length text)

end Scope

/-- Fields, the last of which may still go on. -/
structure Fields where
  closed : List String := []
  current : Option String := none

namespace Fields

/-- Text that goes on with the current field, or begins one. -/
def join (fields : Fields) (text : String) : Fields :=
  ⟨fields.closed, some (fields.current.getD "" ++ text)⟩

/-- The current field ends. -/
def close (fields : Fields) : Fields :=
  ⟨fields.closed ++ fields.current.toList, none⟩

/-- A blank that separates fields. -/
def isSeparator (c : Char) : Bool := c = ' ' || c = '\t' || c = '\n'

/-- A value that is split at its blanks. -/
def split (fields : Fields) (value : String) : Fields :=
  value.toList.foldl (fun fields c =>
    if isSeparator c then fields.close else fields.join c.toString) fields

/-- Several values, each of which is a field. -/
def spread (fields : Fields) : List String → Fields
  | [] => fields
  | [value] => fields.join value
  | value :: rest => spread (fields.join value).close rest

/-- All fields. -/
def all (fields : Fields) : List String := fields.close.closed

end Fields

/-- A value, which is split unless it is quoted. -/
def place (quoted : Bool) (value : String) (fields : Fields) : Fields :=
  if quoted then fields.join value else fields.split value

/-- A value as a pattern, in which it stands for itself if it is quoted. -/
def asPattern (quoted : Bool) (value : String) : List Char :=
  if quoted then guarded value.toList else value.toList

end Publication.Shell
