import Publication.Toml.Scalar
import Publication.Toml.Table

/-!
Reading TOML. A text is read line by line: comments, keys with their values, and headers.
-/

namespace Publication.Toml

/-- A character of a key without quotes. -/
def isKeyChar (c : Char) : Bool := c.isAlphanum || c == '_' || c == '-'

def name? (s : List Char) : Reading String :=
  match s with
  | '"' :: _ => lineString? s
  | '\'' :: _ => lineString? s
  | _ =>
      let name := s.takeWhile isKeyChar
      if name.isEmpty then none else some (String.ofList name, s.dropWhile isKeyChar)

/-- How deep values may lie in each other, and how many names a key may have. -/
def depthLimit : Nat := 80

/-- Reads the names of a key that follow the first one. -/
def moreNames : Nat → List Char → Option (List String × List Char)
  | 0, _ => none
  | fuel + 1, s =>
      match skipSpace s with
      | '.' :: rest =>
          (name? (skipSpace rest)).bind fun (name, rest) =>
            (moreNames fuel rest).map fun (names, rest) => (name :: names, rest)
      | rest => some ([], rest)

/-- A key: the names before the last one, and the last one. -/
structure Key where
  path : List String
  name : String

/-- Reads a key and the spaces around it. -/
def key? (s : List Char) : Reading Key :=
  (name? (skipSpace s)).bind fun (first, rest) =>
    (moreNames (rest.length + 1) rest).bind fun (names, rest) =>
      let all := first :: names
      if depthLimit ≤ all.length then none
      else some (⟨all.dropLast, all.getLastD first⟩, rest)

/-- What stands behind a comment, if the text begins with a mark of one. -/
def skipComment : List Char → List Char
  | '#' :: rest => rest.dropWhile fun c => isPlain c
  | s => s

/-- What stands behind spaces, comments and line breaks. -/
def skipBlank : Nat → List Char → List Char
  | 0, s => s
  | fuel + 1, s =>
      let rest := skipComment (skipSpace s)
      match newline? rest with
      | some rest => skipBlank fuel rest
      | none => rest

mutual

def value? : Nat → Nat → List Char → Reading Value
  | 0, _, _ => none
  | fuel + 1, depth, s =>
      match s with
      | '[' :: rest =>
          if depthLimit ≤ depth + 1 then none
          else (items? fuel (depth + 1) [] rest).map fun (items, rest) => (.array items, rest)
      | '{' :: rest =>
          if depthLimit ≤ depth + 1 then none
          else
            match skipSpace rest with
            | '}' :: rest => some (.table [], rest)
            | rest =>
                (pairs? fuel (depth + 1) [] rest).map fun (fields, rest) =>
                  (.table (fieldValues fields), rest)
      | '"' :: _ => (string? s).map fun (text, rest) => (.string text, rest)
      | '\'' :: _ => (string? s).map fun (text, rest) => (.string text, rest)
      | _ => readScalar s

/-- Reads the items of an array up to its bracket. A comma may follow the last one. -/
def items? : Nat → Nat → List Value → List Char → Reading (List Value)
  | 0, _, _, _ => none
  | fuel + 1, depth, done, s =>
      match skipBlank (s.length + 1) s with
      | ']' :: rest => some (done.reverse, rest)
      | rest =>
          (value? fuel depth rest).bind fun (item, rest) =>
            match skipBlank (rest.length + 1) rest with
            | ',' :: rest => items? fuel depth (item :: done) rest
            | ']' :: rest => some ((item :: done).reverse, rest)
            | _ => none

/-- Reads the fields of a table on one line up to its brace. -/
def pairs? : Nat → Nat → Fields → List Char → Reading Fields
  | 0, _, _, _ => none
  | fuel + 1, depth, fields, s =>
      (key? s).bind fun (key, rest) =>
        match rest with
        | '=' :: rest =>
            (value? fuel depth (skipSpace rest)).bind fun (value, rest) =>
              (assign value key.name key.path fields).bind fun fields =>
                match skipSpace rest with
                | ',' :: rest => pairs? fuel depth fields rest
                | '}' :: rest => some (fields, rest)
                | _ => none
        | _ => none

end

/-- What has been read of a text: all tables, and where the fields that follow belong. -/
structure Document where
  root : Fields := []
  current : List String := []

/-- What stands behind the end of a line, on which nothing but a comment may stand. -/
def endLine? (s : List Char) : Option (List Char) :=
  match skipComment (skipSpace s) with
  | [] => some []
  | rest => newline? rest

/-- Reads a header and opens what it names. -/
def header? (document : Document) (s : List Char) : Reading Document :=
  match s with
  | '[' :: '[' :: rest =>
      (key? rest).bind fun (key, rest) =>
        match rest with
        | ']' :: ']' :: rest =>
            (openRow key.path key.name document.root).map fun root =>
              (⟨root, key.path ++ [key.name]⟩, rest)
        | _ => none
  | '[' :: rest =>
      (key? rest).bind fun (key, rest) =>
        match rest with
        | ']' :: rest =>
            (openTable key.path key.name document.root).map fun root =>
              (⟨root, key.path ++ [key.name]⟩, rest)
        | _ => none
  | _ => none

/-- Reads a key with its value. -/
def field? (document : Document) (s : List Char) : Reading Document :=
  (key? s).bind fun (key, rest) =>
    match rest with
    | '=' :: rest =>
        let rest := skipSpace rest
        (value? (rest.length + 1) 0 rest).bind fun (value, rest) =>
          (alter (assign value key.name key.path) document.current document.root).map fun root =>
            (⟨root, document.current⟩, rest)
    | _ => none

def readLines : Nat → Document → List Char → Option Document
  | 0, _, _ => none
  | fuel + 1, document, s =>
      match skipSpace s with
      | [] => some document
      | '[' :: rest =>
          (header? document ('[' :: rest)).bind fun (document, rest) =>
            (endLine? rest).bind fun rest => readLines fuel document rest
      | c :: rest =>
          if c = '#' || c = '\n' || c = '\r' then
            (endLine? (c :: rest)).bind fun rest => readLines fuel document rest
          else
            (field? document (c :: rest)).bind fun (document, rest) =>
              (endLine? rest).bind fun rest => readLines fuel document rest

/-- Reads a text, which may begin with a byte order mark. Nothing stands for a text that is not
TOML. -/
def parse? (text : String) : Option Value :=
  let s := match text.toList with
    | c :: rest => if c.toNat = 0xFEFF then rest else c :: rest
    | [] => []
  (readLines (s.length + 2) {} s).map fun document => .table (fieldValues document.root)

end Publication.Toml
