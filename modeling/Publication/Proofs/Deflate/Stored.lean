import Publication.Deflate.Zlib
import Publication.Proofs.Text.Octets

/-! Data that is packed into stored blocks is unpacked to itself. Blocks begin at whole octets, so
only their first three bits are read one by one.
-/

namespace Publication.Deflate

open Publication.Text

theorem number?_last (last : Bool) (rest : List UInt8)
    : Bits.number? 1 ⟨(if last then 1 else 0) :: rest, 0⟩
      = some (if last then 1 else 0, ⟨(if last then 1 else 0) :: rest, 1⟩) := by
  cases last <;> simp [Bits.number?, Bits.bit?]

theorem number?_kind (last : Bool) (rest : List UInt8)
    : Bits.number? 2 ⟨(if last then 1 else 0) :: rest, 1⟩
      = some (0, ⟨(if last then 1 else 0) :: rest, 3⟩) := by
  cases last <;> simp [Bits.number?, Bits.bit?]

/-- The octets of a stored block are read behind its length and the complement of that. -/
theorem readStored_storedBlock (out : Array UInt8) (first : UInt8) (bytes rest : List UInt8)
    (fits : bytes.length ≤ blockLimit)
    : readStored out ⟨first :: ((octets 2 bytes.length).reverse
          ++ ((octets 2 (65535 - bytes.length)).reverse ++ (bytes ++ rest))), 3⟩
        = some (out ++ bytes.toArray, ⟨rest, 0⟩) := by
  have fits : bytes.length ≤ 65535 := fits
  have size := littleEndian_octets 2 bytes.length (by omega)
  have complement := littleEndian_octets 2 (65535 - bytes.length) (by omega)
  simp only [readStored, Bits.aligned, show (3 : Nat) ≠ 0 by decide, if_false,
    List.drop_succ_cons, List.drop_zero]
  rw [takeExactly?_append _ (by simp)]
  simp only [Option.bind_eq_bind, Option.bind_some]
  rw [takeExactly?_append _ (by simp)]
  simp only [Option.bind_some, size, complement]
  rw [if_neg (by omega), takeExactly?_append _ rfl]
  simp

/-- Stored blocks take at least as much room as what is in them. -/
theorem length_le_storedBlocks (more : Nat) (bytes : List UInt8)
    : bytes.length + more ≤ (storedBlocks more bytes).length := by
  induction more generalizing bytes with
  | zero => simp [storedBlocks, storedBlock]; omega
  | succ more ih =>
      have later := ih (bytes.drop blockLimit)
      simp only [storedBlocks, storedBlock, List.length_append, List.length_cons,
        List.length_take, List.length_drop] at *
      omega

/-- Stored blocks are read one after another to the octets in them, by induction on their count. -/
theorem readBlocks_storedBlocks (more fuel : Nat) (out : Array UInt8) (bytes rest : List UInt8)
    (fits : bytes.length ≤ blockLimit * (more + 1)) (enough : more < fuel)
    : readBlocks fuel out ⟨storedBlocks more bytes ++ rest, 0⟩
        = some (out ++ bytes.toArray, ⟨rest, 0⟩) := by
  induction more generalizing fuel out bytes with
  | zero =>
      obtain ⟨fuel, rfl⟩ := Nat.exists_eq_succ_of_ne_zero (by omega : fuel ≠ 0)
      have block := readStored_storedBlock out 1 bytes rest (by omega)
      have last := number?_last true
      have kind := number?_kind true
      simp only [if_true] at last kind
      simp [readBlocks, readBlock, storedBlocks, storedBlock, last, kind, block]
  | succ more ih =>
      obtain ⟨fuel, rfl⟩ := Nat.exists_eq_succ_of_ne_zero (by omega : fuel ≠ 0)
      have block := readStored_storedBlock out 0 (bytes.take blockLimit)
        (storedBlocks more (bytes.drop blockLimit) ++ rest) (List.length_take_le _ _)
      have later := ih fuel (out ++ (bytes.take blockLimit).toArray) (bytes.drop blockLimit)
        (by simp only [List.length_drop]; rw [Nat.mul_succ] at fits; omega) (by omega)
      have last := number?_last false
      have kind := number?_kind false
      simp only [Bool.false_eq_true, if_false] at last kind
      simp only [storedBlocks, storedBlock, Bool.false_eq_true, if_false, List.append_assoc,
        List.cons_append, readBlocks, last, kind, Option.bind_eq_bind, Option.bind_some,
        readBlock, if_true, block, Nat.zero_ne_one, later]
      rw [Array.append_assoc, List.append_toArray (bytes.take blockLimit), List.take_append_drop]

/-- What is packed is unpacked to itself. -/
theorem unpack?_pack (bytes : List UInt8)
    : ∃ checksum, unpack? (pack bytes) = some ⟨bytes, checksum⟩ := by
  have room := length_le_storedBlocks (bytes.length / blockLimit) bytes
  have fits : bytes.length ≤ blockLimit * (bytes.length / blockLimit + 1) :=
    Nat.le_of_lt (Nat.lt_mul_div_succ bytes.length (by decide))
  have read := readBlocks_storedBlocks (bytes.length / blockLimit)
    (8 * (storedBlocks (bytes.length / blockLimit) bytes
      ++ octets 4 (Hash.adler32 bytes)).length + 1)
    #[] bytes (octets 4 (Hash.adler32 bytes)) fits (by simp only [List.length_append]; omega)
  refine ⟨bigEndian (octets 4 (Hash.adler32 bytes)), ?_⟩
  have header : isHeader (0x78 : UInt8).toNat (0x01 : UInt8).toNat = true := by decide
  simp only [pack, List.cons_append, unpack?, header, Bool.not_true, Bool.false_eq_true, if_false,
    read, Option.bind_eq_bind, Option.bind_some, Bits.aligned, if_true]
  rw [← List.append_nil (octets 4 _), takeExactly?_append _ (octets_length 4 _)]
  simp

end Publication.Deflate
