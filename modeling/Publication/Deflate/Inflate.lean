import Publication.Deflate.Prefix
import Publication.Text.Octets

/-!
Unpacking of data in blocks: stored as it is, or as symbols of prefix codes, which stand for octets
and for repetitions of earlier ones.
-/

namespace Publication.Deflate

open Publication.Text

/-- Repeats octets that lie so far back, one after another. -/
def repeatBack (distance : Nat) : Nat → Array UInt8 → Array UInt8
  | 0, out => out
  | n + 1, out => repeatBack distance n (out.push (out.getD (out.size - distance) 0))

/-- The least length and the number of further bits of each length symbol. -/
def lengthTable : List (Nat × Nat) := [
  (3, 0), (4, 0), (5, 0), (6, 0), (7, 0), (8, 0), (9, 0), (10, 0), (11, 1), (13, 1), (15, 1),
  (17, 1), (19, 2), (23, 2), (27, 2), (31, 2), (35, 3), (43, 3), (51, 3), (59, 3), (67, 4),
  (83, 4), (99, 4), (115, 4), (131, 5), (163, 5), (195, 5), (227, 5), (258, 0)]

/-- The least distance and the number of further bits of each distance symbol. -/
def distanceTable : List (Nat × Nat) := [
  (1, 0), (2, 0), (3, 0), (4, 0), (5, 1), (7, 1), (9, 2), (13, 2), (17, 3), (25, 3), (33, 4),
  (49, 4), (65, 5), (97, 5), (129, 6), (193, 6), (257, 7), (385, 7), (513, 8), (769, 8),
  (1025, 9), (1537, 9), (2049, 10), (3073, 10), (4097, 11), (6145, 11), (8193, 12), (12289, 12),
  (16385, 13), (24577, 13)]

/-- Reads the number that a symbol of a table and its further bits stand for. -/
def tabled? (table : List (Nat × Nat)) (symbol : Nat) (bits : Bits) : Option (Nat × Bits) :=
  match table[symbol]? with
  | none => none
  | some (base, extra) => (bits.number? extra).map fun (more, bits) => (base + more, bits)

/-- Reads symbols up to the end of the block. -/
def readSymbols (literals distances : Code) : Nat → Array UInt8 → Bits →
    Option (Array UInt8 × Bits)
  | 0, _, _ => none
  | fuel + 1, out, bits =>
      match literals.symbol? bits with
      | none => none
      | some (symbol, bits) =>
          if symbol < 256 then
            readSymbols literals distances fuel (out.push (UInt8.ofNat symbol)) bits
          else if symbol = 256 then some (out, bits)
          else do
            let (length, bits) ← tabled? lengthTable (symbol - 257) bits
            let (symbol, bits) ← distances.symbol? bits
            let (distance, bits) ← tabled? distanceTable symbol bits
            if out.size < distance then none
            else readSymbols literals distances fuel (repeatBack distance length out) bits

/-- The word lengths of the fixed code for octets and lengths. -/
def fixedLengths : List Nat :=
  List.replicate 144 8 ++ List.replicate 112 9 ++ List.replicate 24 7 ++ List.replicate 8 8

/-- The order in which the word lengths of the code for word lengths are given. -/
def lengthOrder : List Nat := [16, 17, 18, 0, 8, 7, 9, 6, 10, 5, 11, 4, 12, 3, 13, 2, 14, 1, 15]

/-- Reads `n` numbers of three bits. -/
def readTriples : Nat → Bits → Option (List Nat × Bits)
  | 0, bits => some ([], bits)
  | n + 1, bits => do
      let (first, bits) ← bits.number? 3
      let (rest, bits) ← readTriples n bits
      some (first :: rest, bits)

/-- Reads word lengths, latest first, until there are as many as wanted. Some symbols repeat the
length before, others repeat zero. -/
def readLengths (code : Code) (wanted : Nat) : Nat → List Nat → Bits → Option (List Nat × Bits)
  | 0, _, _ => none
  | fuel + 1, done, bits =>
      if done.length = wanted then some (done.reverse, bits)
      else if wanted < done.length then none
      else
        match code.symbol? bits with
        | none => none
        | some (symbol, bits) =>
            if symbol < 16 then readLengths code wanted fuel (symbol :: done) bits
            else if symbol = 16 then
              match done with
              | [] => none
              | last :: _ => do
                  let (n, bits) ← bits.number? 2
                  readLengths code wanted fuel (List.replicate (n + 3) last ++ done) bits
            else if symbol = 17 then do
              let (n, bits) ← bits.number? 3
              readLengths code wanted fuel (List.replicate (n + 3) 0 ++ done) bits
            else do
              let (n, bits) ← bits.number? 7
              readLengths code wanted fuel (List.replicate (n + 11) 0 ++ done) bits

/-- Reads the codes of a block that brings its own. -/
def readCodes (bits : Bits) : Option ((Code × Code) × Bits) := do
  let (literals, bits) ← bits.number? 5
  let (distances, bits) ← bits.number? 5
  let (given, bits) ← bits.number? 4
  if 29 < literals || 29 < distances then none
  else
    let (triples, bits) ← readTriples (given + 4) bits
    let pairs := lengthOrder.zip triples
    let lengths := (List.range 19).map fun symbol => (pairs.lookup symbol).getD 0
    let code ← Code.complete? lengths
    let wanted := literals + 257 + (distances + 1)
    let (all, bits) ← readLengths code wanted (wanted + 1) [] bits
    if all[256]? = some 0 then none
    else
      let literalCode ← Code.complete? (all.take (literals + 257))
      let distanceCode ← Code.sparse? (all.drop (literals + 257))
      some ((literalCode, distanceCode), bits)

/-- Reads a block that is stored as it is: its length, the complement of that, and the octets. -/
def readStored (out : Array UInt8) (bits : Bits) : Option (Array UInt8 × Bits) := do
  let (size, rest) ← takeExactly? 2 bits.aligned
  let (complement, rest) ← takeExactly? 2 rest
  if littleEndian size + littleEndian complement ≠ 65535 then none
  else
    let (found, rest) ← takeExactly? (littleEndian size) rest
    some (found.foldl Array.push out, ⟨rest, 0⟩)

/-- Reads a block of one of three kinds. -/
def readBlock (kind fuel : Nat) (out : Array UInt8) (bits : Bits) : Option (Array UInt8 × Bits) :=
  if kind = 0 then readStored out bits
  else if kind = 1 then
    readSymbols (.ofLengths fixedLengths) (.ofLengths (List.replicate 32 5)) fuel out bits
  else if kind = 2 then
    match readCodes bits with
    | none => none
    | some ((literals, distances), bits) => readSymbols literals distances fuel out bits
  else none

/-- Reads blocks up to the last one. -/
def readBlocks : Nat → Array UInt8 → Bits → Option (Array UInt8 × Bits)
  | 0, _, _ => none
  | fuel + 1, out, bits => do
      let (last, bits) ← bits.number? 1
      let (kind, bits) ← bits.number? 2
      let (out, bits) ← readBlock kind (8 * bits.rest.length + 1) out bits
      if last = 1 then some (out, bits) else readBlocks fuel out bits

end Publication.Deflate
