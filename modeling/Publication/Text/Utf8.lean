/-!
Text in UTF-8: strict reading, and reading in which what is not text is replaced.
-/

namespace Publication.Text

/-- The octets of a text. -/
def utf8 (text : String) : List UInt8 := text.toUTF8.data.toList

def ofUtf8? (bytes : List UInt8) : Option String := String.fromUTF8? ⟨bytes.toArray⟩

/-- The ranges of the octets that may follow the first one of a character. -/
def continuations (first : Nat) : List (Nat × Nat) :=
  if 0xC2 ≤ first && first ≤ 0xDF then [(0x80, 0xBF)]
  else if first = 0xE0 then [(0xA0, 0xBF), (0x80, 0xBF)]
  else if first = 0xED then [(0x80, 0x9F), (0x80, 0xBF)]
  else if 0xE1 ≤ first && first ≤ 0xEF then [(0x80, 0xBF), (0x80, 0xBF)]
  else if first = 0xF0 then [(0x90, 0xBF), (0x80, 0xBF), (0x80, 0xBF)]
  else if 0xF1 ≤ first && first ≤ 0xF3 then [(0x80, 0xBF), (0x80, 0xBF), (0x80, 0xBF)]
  else if first = 0xF4 then [(0x80, 0x8F), (0x80, 0xBF), (0x80, 0xBF)]
  else []

/-- How many octets lie in the ranges given for them, one after another. -/
def matching : List (Nat × Nat) → List UInt8 → Nat
  | (low, high) :: ranges, b :: rest =>
      if low ≤ b.toNat && b.toNat ≤ high then matching ranges rest + 1 else 0
  | _, _ => 0

/-- The character of a first octet and those that follow it. -/
def assemble (first : Nat) (more : List UInt8) : Char :=
  let lead := match more.length with
    | 1 => first % 32
    | 2 => first % 16
    | _ => first % 8
  Char.ofNat (more.foldl (fun n b => n * 64 + b.toNat % 64) lead)

/-- Reads octets. The longest piece that could begin a character but does not go on as one is
replaced by one mark. -/
def lossy : Nat → List UInt8 → List Char
  | fuel + 1, b :: rest =>
      let first := b.toNat
      if first < 0x80 then Char.ofNat first :: lossy fuel rest
      else
        let ranges := continuations first
        let found := matching ranges rest
        if !ranges.isEmpty && found = ranges.length then
          assemble first (rest.take found) :: lossy fuel (rest.drop found)
        else Char.ofNat 0xFFFD :: lossy fuel (rest.drop found)
  | _, _ => []

/-- The text of octets, with a mark for each piece that is not text. -/
def ofUtf8Lossy (bytes : List UInt8) : List Char := lossy bytes.length bytes

end Publication.Text
