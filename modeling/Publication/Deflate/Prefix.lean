/-!
Octets read bit by bit, the least significant bit of each first, and prefix codes given by the
lengths of their words. Words are handed out in order of length, and within a length in order of the
symbols.
-/

namespace Publication.Deflate

/-- Octets, and how many bits of the first one have been read. -/
structure Bits where
  rest : List UInt8
  used : Nat := 0
deriving Repr, DecidableEq

namespace Bits

/-- Reads a bit. -/
def bit? (bits : Bits) : Option (Nat × Bits) :=
  match bits.rest with
  | [] => none
  | b :: rest =>
      let value := b.toNat / Nat.pow 2 bits.used % 2
      some (value, if bits.used < 7 then ⟨b :: rest, bits.used + 1⟩ else ⟨rest, 0⟩)

/-- Reads a number of so many bits, the least significant one first. -/
def number? : Nat → Bits → Option (Nat × Bits)
  | 0, bits => some (0, bits)
  | n + 1, bits =>
      match bits.bit? with
      | none => none
      | some (low, bits) =>
          match number? n bits with
          | none => none
          | some (high, bits) => some (2 * high + low, bits)

/-- The octets behind the one that has been begun. -/
def aligned (bits : Bits) : List UInt8 := if bits.used = 0 then bits.rest else bits.rest.drop 1

end Bits

/-- The longest word. -/
def maxLength : Nat := 15

/-- A code: how many words there are of each length from one on, and the symbols in order. -/
structure Code where
  counts : List Nat
  symbols : List Nat
deriving Repr, DecidableEq

def countOf (lengths : List Nat) (length : Nat) : Nat := (lengths.filter (· = length)).length

def symbolsOf (lengths : List Nat) (length : Nat) : List Nat :=
  (lengths.zipIdx.filter fun (l, _) => l = length).map (·.2)

/-- The lengths that words can have. -/
def allLengths : List Nat := (List.range maxLength).map (· + 1)

/-- The code with given word lengths, where zero stands for no word. -/
def Code.ofLengths (lengths : List Nat) : Code :=
  ⟨allLengths.map (countOf lengths), allLengths.flatMap (symbolsOf lengths)⟩

/-- The share of all words of the greatest length that the words of a code begin. -/
def Code.share (code : Code) : Nat :=
  (code.counts.zip allLengths).foldl (fun sum (count, length) =>
    sum + count * Nat.pow 2 (maxLength - length)) 0

/-- Every sequence of bits begins with exactly one word. -/
def Code.isComplete (code : Code) : Bool := code.share == Nat.pow 2 maxLength

/-- The code with given word lengths, if it is complete. -/
def Code.complete? (lengths : List Nat) : Option Code :=
  let code := Code.ofLengths lengths
  if code.isComplete then some code else none

/-- The code with given word lengths, if it is complete, empty, or has one word of one bit. -/
def Code.sparse? (lengths : List Nat) : Option Code :=
  let code := Code.ofLengths lengths
  if code.isComplete || code.symbols.isEmpty
      || (code.symbols.length == 1 && code.counts.head? == some 1)
  then some code else none

/-- Reads a word bit by bit. `word` is what has been read, `first` the first word of this length,
and `index` the place of its symbol. -/
def decodeFrom : List Nat → List Nat → (word first index : Nat) → Bits → Option (Nat × Bits)
  | [], _, _, _, _, _ => none
  | count :: counts, symbols, word, first, index, bits =>
      match bits.bit? with
      | none => none
      | some (b, bits) =>
          let word := 2 * word + b
          let first := 2 * first
          if word < first + count then
            (symbols[index + (word - first)]?).map (·, bits)
          else decodeFrom counts symbols word (first + count) (index + count) bits

/-- Reads a word and returns its symbol. -/
def Code.symbol? (code : Code) (bits : Bits) : Option (Nat × Bits) :=
  decodeFrom code.counts code.symbols 0 0 0 bits

end Publication.Deflate
