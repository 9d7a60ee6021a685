import Publication.Json.Reader

/-!
Passing over a JSON value that is not wanted. Its text has to be JSON, but numbers may be of any
size and characters given by number need not exist.
-/

namespace Publication.Json

/-- What stands behind at least one digit. -/
def skipDigits (s : List Char) : Except ReadError (List Char) :=
  if (s.head?.map Char.isDigit).getD false then .ok (s.dropWhile Char.isDigit)
  else .error .malformed

/-- What stands behind an exponent, if there is one. -/
def skipExponent : List Char → Except ReadError (List Char)
  | c :: rest =>
      if c = 'e' || c = 'E' then
        match rest with
        | '+' :: rest => skipDigits rest
        | '-' :: rest => skipDigits rest
        | rest => skipDigits rest
      else .ok (c :: rest)
  | [] => .ok []

/-- What stands behind a fraction and an exponent, where they are. -/
def skipNumberTail : List Char → Except ReadError (List Char)
  | '.' :: rest =>
      match skipDigits rest with
      | .ok rest => skipExponent rest
      | .error e => .error e
  | s => skipExponent s

/-- What stands behind a number without its sign. -/
def skipNumber : List Char → Except ReadError (List Char)
  | '0' :: rest =>
      if (rest.head?.map Char.isDigit).getD false then .error .malformed else skipNumberTail rest
  | s =>
      match skipDigits s with
      | .ok rest => skipNumberTail rest
      | .error e => .error e

/-- What stands behind a text, from behind its first quote. -/
def skipText : Nat → List Char → Except ReadError (List Char)
  | 0, _ => .error .unfinished
  | _ + 1, [] => .error .unfinished
  | fuel + 1, c :: rest =>
      if c = '"' then .ok rest
      else if c = '\\' then
        match rest with
        | [] => .error .unfinished
        | 'u' :: rest =>
            match readHex rest with
            | .ok (_, rest) => skipText fuel rest
            | .error e => .error e
        | d :: rest => if (escape? d).isSome then skipText fuel rest else .error .malformed
      else if c.toNat < 0x20 then .error .malformed
      else skipText fuel rest

mutual

/-- What stands behind a value. -/
def skipValue : Nat → List Char → Except ReadError (List Char)
  | 0, _ => .error .unfinished
  | fuel + 1, s =>
      match skipSpace s with
      | [] => .error .unfinished
      | c :: rest =>
          if c = 'n' then word "ull".toList rest
          else if c = 't' then word "rue".toList rest
          else if c = 'f' then word "alse".toList rest
          else if c = '-' then skipNumber rest
          else if c.isDigit then skipNumber (c :: rest)
          else if c = '"' then skipText (rest.length + 1) rest
          else if c = '[' then skipItems fuel true rest
          else if c = '{' then skipFields fuel true rest
          else .error .malformed

/-- What stands behind the items of a sequence and its bracket. -/
def skipItems : Nat → Bool → List Char → Except ReadError (List Char)
  | 0, _, _ => .error .unfinished
  | fuel + 1, first, s =>
      match nextItem first s with
      | .error e => .error e
      | .ok none => close ']' s
      | .ok (some s) =>
          match skipValue fuel s with
          | .ok rest => skipItems fuel false rest
          | .error e => .error e

/-- What stands behind the fields of an object and its brace. -/
def skipFields : Nat → Bool → List Char → Except ReadError (List Char)
  | 0, _, _ => .error .unfinished
  | fuel + 1, first, s =>
      match nextKey first s with
      | .error e => .error e
      | .ok none => close '}' s
      | .ok (some s) =>
          match skipText (s.length + 1) s with
          | .error e => .error e
          | .ok rest =>
              match behindColon rest with
              | .error e => .error e
              | .ok rest =>
                  match skipValue fuel rest with
                  | .ok rest => skipFields fuel false rest
                  | .error e => .error e

end

/-- Reads a whole text as one value. -/
def readAll {α : Type} (read : Reader α) (text : String) : Except ReadError α :=
  match read text.toList with
  | .ok (a, rest) => if (skipSpace rest).isEmpty then .ok a else .error .malformed
  | .error e => .error e

end Publication.Json
