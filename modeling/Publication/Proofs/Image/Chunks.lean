import Publication.Image.Png.Chunk
import Publication.Image.Png.Text
import Publication.Proofs.Text.Octets

/-! Chunks are read back from the octets that they are written as, whatever stands behind them. A
text that was read from a file can be written into one, and is then read again as it was.
-/

namespace Publication.Image.Png

open Publication.Text

-----------------------------------------------------------------------------------------
-- Chunks
-----------------------------------------------------------------------------------------

/-- A chunk whose name and length can be written. -/
structure Chunk.Fits (chunk : Chunk) : Prop where
  name : chunk.name.length = 4
  data : chunk.data.length < 256 ^ 4

/-- The length and the name of a chunk are read back. -/
theorem chunkStart?_bytes {chunk : Chunk} (fits : chunk.Fits) (rest : List UInt8)
    : chunkStart? (chunk.bytes ++ rest)
      = some (chunk.data.length, chunk.name, chunk.data ++ (octets 4 chunk.checksum ++ rest)) := by
  simp only [chunkStart?, Chunk.bytes, List.append_assoc]
  rw [takeExactly?_append _ (octets_length 4 _)]
  simp only [Option.bind_eq_bind, Option.bind_some]
  rw [takeExactly?_append _ fits.name]
  simp only [Option.bind_some, bigEndian_octets 4 _ fits.data]

/-- A chunk is read back whole, and its checksum is right. -/
theorem chunk?_bytes {chunk : Chunk} (fits : chunk.Fits) (rest : List UInt8)
    : chunk? (chunk.bytes ++ rest) = some (⟨chunk, true⟩, rest) := by
  have sum : bigEndian (octets 4 chunk.checksum) = chunk.checksum :=
    bigEndian_octets 4 _ (Hash.crc32 _).toNat_lt
  simp only [chunk?, chunkStart?_bytes fits, Option.bind_eq_bind, Option.bind_some]
  rw [takeExactly?_append _ rfl]
  simp only [Option.bind_some]
  rw [takeExactly?_append _ (octets_length 4 _)]
  simp [sum]

/-- What is read as a chunk can be written as one, and stands in front of the rest. -/
theorem chunk?_fits {bytes rest : List UInt8} {framed : Framed}
    (read : chunk? bytes = some (framed, rest))
    : framed.chunk.Fits := by
  simp only [chunk?, chunkStart?, Option.bind_eq_bind, Option.bind_eq_some_iff, Prod.exists,
    Option.some.injEq, Prod.mk.injEq] at read
  obtain ⟨_, _, _, ⟨length, _, taken, name, _, named, rfl, rfl, rfl⟩, data, _, found, _, _, _, rfl,
    _⟩ :=
    read
  refine ⟨(takeExactly?_eq_some named).2, ?_⟩
  rw [(takeExactly?_eq_some found).2, ← (takeExactly?_eq_some taken).2]
  exact bigEndian_lt length

-----------------------------------------------------------------------------------------
-- Chunks that are cut into several
-----------------------------------------------------------------------------------------

theorem Chunk.flatten_cutData (more : Nat) (data : List UInt8)
    : (cutData more data).flatten = data := by
  induction more generalizing data with
  | zero => simp [cutData]
  | succ more ih => simp [cutData, ih]

/-- No piece of data is longer than the limit if there are enough of them. -/
theorem Chunk.length_le_of_mem_cutData {more : Nat} {data piece : List UInt8}
    (enough : data.length ≤ dataLimit * (more + 1)) (member : piece ∈ cutData more data)
    : piece.length ≤ dataLimit := by
  induction more generalizing data with
  | zero =>
      have same : piece = data := List.mem_singleton.mp member
      subst same
      simpa using enough
  | succ more ih =>
      rcases List.mem_cons.mp member with rfl | later
      · exact List.length_take_le _ _
      · refine ih ?_ later
        rw [List.length_drop]
        rw [Nat.mul_succ] at enough
        omega

/-- The chunks that a chunk is cut into keep its name and can be written. -/
theorem Chunk.fits_of_mem_cut {chunk piece : Chunk} (named : chunk.name.length = 4)
    (member : piece ∈ chunk.cut)
    : piece.name = chunk.name ∧ piece.Fits := by
  obtain ⟨data, inside, rfl⟩ := List.mem_map.mp member
  have enough : chunk.data.length ≤ dataLimit * ((chunk.data.length - 1) / dataLimit + 1) := by
    have below := Nat.lt_mul_div_succ (chunk.data.length - 1) (by decide : 0 < dataLimit)
    omega
  have short : data.length ≤ 2147483647 := length_le_of_mem_cutData enough inside
  exact ⟨rfl, named, by simp only; omega⟩

theorem Chunk.flatMap_data_cut (chunk : Chunk) : chunk.cut.flatMap Chunk.data = chunk.data := by
  simp [Chunk.cut, List.flatMap_map, Chunk.flatten_cutData]

theorem Chunk.cut_ne_nil (chunk : Chunk) : chunk.cut ≠ [] := by
  cases more : (chunk.data.length - 1) / dataLimit <;> simp [Chunk.cut, more, cutData]

-----------------------------------------------------------------------------------------
-- Texts
-----------------------------------------------------------------------------------------

/-- The character that an octet stands for has its number. -/
theorem toNat_ofNat_octet (b : UInt8) : (Char.ofNat b.toNat).toNat = b.toNat := by
  have small : b.toNat < 256 := b.toNat_lt
  have valid : b.toNat.isValidChar := Or.inl (by omega)
  have made : Char.ofNat b.toNat = Char.ofNatAux b.toNat valid := dif_pos valid
  exact congrArg Char.toNat made

/-- An octet is the character that it stands for. -/
@[simp] theorem latin1Octet?_ofNat (b : UInt8) : latin1Octet? (Char.ofNat b.toNat) = some b := by
  simp [latin1Octet?, toNat_ofNat_octet, b.toNat_lt]

/-- A character with an octet is the one that the octet stands for. -/
theorem ofNat_of_latin1Octet? {c : Char} {b : UInt8} (octet : latin1Octet? c = some b)
    : Char.ofNat b.toNat = c := by
  simp only [latin1Octet?] at octet
  split at octet
  next small =>
      cases octet
      rw [UInt8.toNat_ofNat', Nat.mod_eq_of_lt small, Char.ofNat_toNat]
  next => cases octet

@[simp] theorem toLatin1?_latin1 (bytes : List UInt8) : toLatin1? (latin1 bytes) = some bytes := by
  simp only [toLatin1?, latin1, String.toList_ofList]
  induction bytes with
  | nil => rfl
  | cons b bytes ih => simp [ih]

/-- The octets of a text stand for it, by induction on its characters. -/
theorem latin1_of_toLatin1? {text : String} {bytes : List UInt8}
    (octets : toLatin1? text = some bytes)
    : latin1 bytes = text := by
  simp only [toLatin1?] at octets
  rw [latin1, ← @String.ofList_toList text]
  congr 1
  generalize text.toList = characters at octets
  induction characters generalizing bytes with
  | nil =>
      cases octets
      rfl
  | cons c characters ih =>
      simp only [List.mapM_cons, Option.pure_def, Option.bind_eq_bind, Option.bind_eq_some_iff,
        Option.some.injEq] at octets
      obtain ⟨b, first, more, later, rfl⟩ := octets
      simp [ofNat_of_latin1Octet? first, ih later]

@[simp] theorem latin1_length (bytes : List UInt8) : (latin1 bytes).length = bytes.length := by
  simp [latin1]

/-- Octets without a zero are cut off at the zero behind them, by induction on them. -/
theorem cutAtZero?_append {keyword : List UInt8} (free : 0 ∉ keyword) (text : List UInt8)
    : cutAtZero? (keyword ++ 0 :: text) = some (keyword, text) := by
  induction keyword with
  | nil => simp [cutAtZero?]
  | cons b keyword ih =>
      simp only [List.mem_cons, not_or] at free
      simp [cutAtZero?, Ne.symm free.1, ih free.2]

/-- Octets are cut at a zero, and none stands before it. -/
theorem cutAtZero?_eq_some {data keyword text : List UInt8}
    (read : cutAtZero? data = some (keyword, text))
    : data = keyword ++ 0 :: text ∧ 0 ∉ keyword := by
  induction data generalizing keyword with
  | nil => cases read
  | cons b data ih =>
      simp only [cutAtZero?] at read
      split at read
      next zero =>
          cases read
          simp [zero]
      next other =>
          obtain ⟨⟨found, rest⟩, later, same⟩ := Option.map_eq_some_iff.mp read
          cases same
          obtain ⟨joined, free⟩ := ih later
          simp [joined, free, Ne.symm other]

/-- A keyword and a text that fit into a chunk, with a keyword that ends where the text begins. -/
def Writable (entry : String × String) : Prop :=
  ∃ keyword text : List UInt8,
    entry = (latin1 keyword, latin1 text)
    ∧ isKeyword keyword = true
    ∧ 0 ∉ keyword
    ∧ keyword.length + text.length + 1 < 256 ^ 4

/-- A text that was read from a chunk can be written into one. -/
theorem writable_of_readText? {data : List UInt8} {entry : String × String}
    (fits : data.length < 256 ^ 4) (read : readText? data = some entry)
    : Writable entry := by
  obtain ⟨⟨keyword, text⟩, cut, rest⟩ := Option.bind_eq_some_iff.mp read
  obtain ⟨rfl, free⟩ := cutAtZero?_eq_some cut
  simp only [Option.ite_none_right_eq_some, Option.some.injEq] at rest
  simp only [List.length_append, List.length_cons] at fits
  exact ⟨keyword, text, rest.2.symm, rest.1, free, by omega⟩

/-- A text that can be written is written into a chunk that holds it. -/
theorem Writable.textChunk? {entry : String × String} (writable : Writable entry)
    : ∃ data, Png.textChunk? entry = some ⟨Chunk.text, data⟩
        ∧ data.length < 256 ^ 4 ∧ readText? data = some entry := by
  obtain ⟨keyword, text, rfl, proper, free, fits⟩ := writable
  refine ⟨keyword ++ 0 :: text, by simp [Png.textChunk?, proper], ?_, ?_⟩
  · simp only [List.length_append, List.length_cons]
    omega
  · simp [readText?, cutAtZero?_append free, proper]

end Publication.Image.Png
