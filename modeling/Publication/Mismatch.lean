import Publication.Number.Shortest
import Publication.Text.Message

/-!
Why a well-formed value is not of the wanted shape, and the wording of it.
-/

namespace Publication

open Publication.Number

/-- What stands where something else is wanted. -/
inductive Found where
  | boolean (value : Bool)
  | integer (value : Int)
  | float (value : Binary64)
  | string (value : String)
  | null
  | sequence
  | map
deriving Repr, DecidableEq

/-- A thing found, in words. -/
def Found.text (style : Style) : Found → String
  | .boolean value => "boolean \x60" ++ toString value ++ "\x60"
  | .integer value => "integer \x60" ++ toString value ++ "\x60"
  | .float value => "floating point \x60" ++ value.text style ++ "\x60"
  | .string value => "string " ++ Text.quoted value
  | .null => "null"
  | .sequence => "sequence"
  | .map => "map"

/-- The ways in which a value can miss the wanted shape. -/
inductive Mismatch where
  /-- Something of another type. -/
  | type (found : Found) (wanted : String)
  /-- Something of the right type outside the range. -/
  | value (found : Found) (wanted : String)
  /-- A sequence of the wrong length. -/
  | length (found : Nat) (wanted : String)
  | unknownField (name : String) (known : List String)
  | missingField (name : String)
  | duplicateField (name : String)
deriving Repr, DecidableEq

/-- A name between backticks. -/
def ticked (name : String) : String := "\x60" ++ name ++ "\x60"

/-- The known names in words: two are joined by `or`, more are listed. -/
def choices : List String → String
  | [] => "there are no fields"
  | [a] => "expected " ++ ticked a
  | [a, b] => "expected " ++ ticked a ++ " or " ++ ticked b
  | names => "expected one of " ++ String.intercalate ", " (names.map ticked)

/-- A mismatch in words. -/
def Mismatch.text (style : Style) : Mismatch → String
  | .type found wanted => "invalid type: " ++ found.text style ++ ", expected " ++ wanted
  | .value found wanted => "invalid value: " ++ found.text style ++ ", expected " ++ wanted
  | .length found wanted => "invalid length " ++ toString found ++ ", expected " ++ wanted
  | .unknownField name known => "unknown field " ++ ticked name ++ ", " ++ choices known
  | .missingField name => "missing field " ++ ticked name
  | .duplicateField name => "duplicate field " ++ ticked name

end Publication
