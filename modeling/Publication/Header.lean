import Publication.Text.Lines

/-!
The header of a document: lines `key: value` before the body. Keys are kept in lower case and in
order, each with its values in the order in which they are written.
-/

namespace Publication

open Publication.Text

/-- Header fields by key in lower case, in increasing order of the keys. -/
structure Header where
  fields : List (String × List String)
deriving Repr, DecidableEq

namespace Header

/-- No field is given. -/
def empty : Header := ⟨[]⟩

/-- The ASCII letters of a key in lower case. -/
def normalKey (key : String) : String := String.ofList (key.toList.map Char.toLower)

/-- Puts a value behind the others of its key, and a new key at its place in the order. -/
def insert (key value : String) : List (String × List String) → List (String × List String)
  | [] => [(key, [value])]
  | (k, values) :: rest =>
      if key = k then (k, values ++ [value]) :: rest
      else if key < k then (key, [value]) :: (k, values) :: rest
      else (k, values) :: insert key value rest

def push (header : Header) (key value : String) : Header :=
  ⟨insert (normalKey key) value header.fields⟩

def values (header : Header) (key : String) : List String :=
  ((header.fields.find? (·.1 = normalKey key)).map (·.2)).getD []

def first (header : Header) (key : String) : Option String := (header.values key).head?

/-- The values of a key cut at their commas and trimmed, without the empty ones. -/
def list (header : Header) (key : String) : List String :=
  (((header.values key).flatMap fun value => splitOn ',' value.toList).map trim).filter
    (fun item => !item.isEmpty) |>.map String.ofList

/-- The first value of a key read as yes or no, or `default` where it is neither. -/
def flag (header : Header) (key : String) (default : Bool) : Bool :=
  match (header.first key).map fun value => normalKey (trimmed value) with
  | some value =>
      if value ∈ ["true", "yes", "1"] then true
      else if value ∈ ["false", "no", "0"] then false
      else default
  | none => default

def isKeyChar (c : Char) : Bool := c.isAlphanum || c == '_' || c == '-'

/-- The number of spaces a line begins with. -/
def indent (line : List Char) : Nat := (line.takeWhile (· = ' ')).length

/-- A line `key: value`, behind at most three spaces. The value is trimmed. -/
def keyLine? (line : List Char) : Option (String × String) :=
  if 3 < indent line then none
  else
    let text := line.dropWhile (· = ' ')
    let key := text.takeWhile isKeyChar
    match text.dropWhile isKeyChar with
    | ':' :: value =>
        if key.isEmpty then none
        else some (normalKey (String.ofList key), String.ofList (trim value))
    | _ => none

/-- A line behind at least four spaces, which carries a further value. The value is trimmed. -/
def continuation? (line : List Char) : Option String :=
  if 4 ≤ indent line then some (String.ofList (trim (line.drop 4))) else none

/-- A blank line or a rule of dashes or dots ends the header and belongs to it. -/
def isEnd (line : List Char) : Bool :=
  allBlank line || trimEnd line == "---".toList || trimEnd line == "...".toList

/-- Reads header lines until one ends the header. The lines are given with their breaks; those that
are left make up the body. -/
def readLines : Header → Option String → List (List Char) → Header × List (List Char)
  | header, _, [] => (header, [])
  | header, current, line :: rest =>
      let bare := withoutBreak line
      if isEnd bare then (header, rest)
      else
        match keyLine? bare with
        | some (key, value) => readLines (header.push key value) (some key) rest
        | none =>
            match current, continuation? bare with
            | some key, some value => readLines (header.push key value) current rest
            | _, _ => (header, line :: rest)

/-- The lines behind a first line of three dashes, which may open the header. -/
def skipOpening : List (List Char) → List (List Char)
  | line :: rest => if trimEnd (withoutBreak line) = "---".toList then rest else line :: rest
  | [] => []

/-- Splits a document into its header and its body. -/
def split (text : String) : Header × String :=
  let (header, body) := readLines empty none (skipOpening (lines text.toList))
  (header, String.ofList body.flatten)

/-- The first candidate that is there and not blank, trimmed. -/
def resolve (candidates : List (Option String)) : Option String :=
  candidates.findSome? fun candidate =>
    (candidate.map trimmed).filter (fun value => !value.isEmpty)

end Header
end Publication
