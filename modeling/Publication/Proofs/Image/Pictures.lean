import Publication.Image.Png.Row
import Publication.Proofs.Deflate.Stored
import Publication.Proofs.Image.Heads

/-! A picture that was read from a file and is written again is read as the same picture, without
interlacing and international texts, unless its transparency was cut down when it was read. Its rows
are stored as they are; rows that are read have the length that the size of the picture gives,
whether or not it is interlaced.
-/

namespace Publication.Image.Png

open Publication.Text

-----------------------------------------------------------------------------------------
-- Rows
-----------------------------------------------------------------------------------------

theorem restore_plain (step : Nat) (shifted above done row : List UInt8)
    : restore 0 step shifted above done row = some (done.reverse ++ row) := by
  induction row generalizing shifted above done with
  | nil => simp [restore]
  | cons b row ih => simp [restore, predicted?, ih]

/-- A row keeps its length when it is restored, by induction on the row. -/
theorem restore_length {filter step : Nat} {shifted above done row restored : List UInt8}
    (read : restore filter step shifted above done row = some restored)
    : restored.length = done.length + row.length := by
  induction row generalizing shifted above done with
  | nil =>
      simp only [restore, Option.some.injEq] at read
      simp [← read]
  | cons b row ih =>
      simp only [restore] at read
      split at read
      · cases read
      · have length := ih read
        simp only [List.length_cons] at length ⊢
        omega

/-- Rows that are stored as they are come back as they are, by induction on their count. -/
theorem readRows_plainRows (step length n : Nat) (above : List UInt8) {pixels : List UInt8}
    (rest : List UInt8) (full : pixels.length = n * length)
    : ∃ rows,
        readRows step length n above (plainRows length n pixels ++ rest) = some (rows, rest)
        ∧ rows.flatten = pixels := by
  induction n generalizing above pixels with
  | zero =>
      have empty : pixels = [] := List.eq_nil_of_length_eq_zero (by simpa using full)
      exact ⟨[], by simp [readRows, plainRows, empty]⟩
  | succ n ih =>
      have enough : (pixels.take length).length = length := by
        rw [List.length_take, full, Nat.succ_mul]
        omega
      have remaining : (pixels.drop length).length = n * length := by
        rw [List.length_drop, full, Nat.succ_mul]
        omega
      obtain ⟨rows, read, joined⟩ := ih (pixels.take length) remaining
      refine ⟨pixels.take length :: rows, ?_, by simp [joined]⟩
      simp only [plainRows, List.cons_append, List.append_assoc, readRows]
      rw [takeExactly?_append _ enough]
      simp only [Option.bind_eq_bind, Option.bind_some, UInt8.toNat_zero, restore_plain,
        List.reverse_nil, List.nil_append, read]

/-- Rows that are read have the length that was asked for, by induction on their count. -/
theorem readRows_length {step length n : Nat} {above data rest : List UInt8}
    {rows : List (List UInt8)}
    (read : readRows step length n above data = some (rows, rest))
    : rows.flatten.length = n * length := by
  induction n generalizing above data rows with
  | zero =>
      simp only [readRows, Option.some.injEq, Prod.mk.injEq] at read
      simp [← read.1]
  | succ n ih =>
      cases data with
      | nil => cases read
      | cons filter data =>
          simp only [readRows, Option.bind_eq_bind, Option.bind_eq_some_iff, Prod.exists,
            Option.some.injEq, Prod.mk.injEq] at read
          obtain ⟨row, data, taken, restored, here, more, _, later, rfl, rfl⟩ := read
          have first := restore_length here
          rw [(takeExactly?_eq_some taken).2] at first
          simp only [List.flatten_cons, List.length_append, ih later, Nat.succ_mul, first,
            List.length_nil]
          omega

theorem octetsOf_length (n : Nat) (bits : List Bool) : (octetsOf n bits).length = n := by
  induction n generalizing bits with
  | zero => rfl
  | succ n ih => simp [octetsOf, ih]

theorem weave_length (header : Header) (found : List (Pass × List (List Bool)))
    : (weave header found).flatten.length
      = header.height * header.rowLength header.width := by
  simp [weave, List.length_flatten, Function.comp_def, octetsOf_length, List.map_const']

/-- The pixels of a picture are as many as its size gives. -/
theorem picture?_length {header : Header} {data : List UInt8} {rows : List (List UInt8)}
    (read : picture? header data = some rows)
    : rows.flatten.length = header.height * header.rowLength header.width := by
  simp only [picture?] at read
  split at read
  next =>
      obtain ⟨found, _, rfl⟩ := Option.map_eq_some_iff.mp read
      exact weave_length header found
  next =>
      obtain ⟨⟨rows, rest⟩, found, rfl⟩ := Option.map_eq_some_iff.mp read
      exact readRows_length found

/-- A picture that is stored row by row without filters comes back as it is. -/
theorem picture?_plainRows {header : Header} {pixels : List UInt8}
    (plain : header.interlaced = false)
    (full : pixels.length = header.height * header.rowLength header.width)
    : ∃ rows,
        picture? header (plainRows (header.rowLength header.width) header.height pixels) = some rows
        ∧ rows.flatten = pixels := by
  obtain ⟨rows, read, joined⟩ := readRows_plainRows header.pixelStep
    (header.rowLength header.width) header.height
    (List.replicate (header.rowLength header.width) 0) [] full
  refine ⟨rows, ?_, joined⟩
  rw [List.append_nil] at read
  simp [picture?, plain, read]

-----------------------------------------------------------------------------------------
-- Chunks are read one after another
-----------------------------------------------------------------------------------------

/-- Chunks before the pixels are taken in one after another, by induction on them. -/
theorem readChunks_flatMap (fuel : Nat) (head : Head) {chunks : List Chunk} {rest : List UInt8}
    (enough : chunks.length < fuel)
    (fits : ∀ chunk ∈ chunks, chunk.Fits)
    (before : ∀ chunk ∈ chunks, chunk.name ≠ Chunk.pixels ∧ chunk.name ≠ Chunk.last)
    (pixels : ∃ size more, chunkStart? rest = some (size, Chunk.pixels, more))
    : readChunks fuel head (chunks.flatMap Chunk.bytes ++ rest)
      = (chunks.foldlM Head.add? head).map fun next => (next, rest) := by
  induction chunks generalizing fuel head with
  | nil =>
      obtain ⟨fuel, rfl⟩ := Nat.exists_eq_succ_of_ne_zero (Nat.ne_zero_of_lt enough)
      obtain ⟨size, more, start⟩ := pixels
      simp [readChunks, start]
  | cons chunk chunks ih =>
      obtain ⟨fuel, rfl⟩ := Nat.exists_eq_succ_of_ne_zero (Nat.ne_zero_of_lt enough)
      have here := fits chunk (by simp)
      have name := before chunk (by simp)
      have later (next : Head) := ih fuel next (by simpa using enough)
        (fun other member => fits other (by simp [member]))
        (fun other member => before other (by simp [member]))
      simp only [List.flatMap_cons, List.append_assoc, readChunks, chunkStart?_bytes here,
        Option.bind_eq_bind, Option.bind_some, name.1, if_false, name.2, chunk?_bytes here,
        if_true, later, List.foldlM_cons]
      cases head.add? chunk <;> simp

/-- The data of chunks of pixels is joined, by induction on them. -/
theorem readData_flatMap (fuel : Nat) {chunks : List Chunk} {rest : List UInt8}
    (enough : chunks.length < fuel)
    (fits : ∀ chunk ∈ chunks, chunk.name = Chunk.pixels ∧ chunk.Fits)
    (last : ∃ size more, chunkStart? rest = some (size, Chunk.last, more))
    : readData fuel (chunks.flatMap Chunk.bytes ++ rest) = some (chunks.flatMap Chunk.data) := by
  induction chunks generalizing fuel with
  | nil =>
      obtain ⟨fuel, rfl⟩ := Nat.exists_eq_succ_of_ne_zero (Nat.ne_zero_of_lt enough)
      obtain ⟨size, more, start⟩ := last
      have other : Chunk.last ≠ Chunk.pixels := by decide
      simp [readData, start, other]
  | cons chunk chunks ih =>
      obtain ⟨fuel, rfl⟩ := Nat.exists_eq_succ_of_ne_zero (Nat.ne_zero_of_lt enough)
      obtain ⟨name, here⟩ := fits chunk (by simp)
      have later := ih fuel (by simpa using enough)
        (fun other member => fits other (by simp [member]))
      simp [readData, chunkStart?_bytes here, name, chunk?_bytes here, later]

/-- Chunks are no more than their octets. -/
theorem length_le_flatMap_bytes (chunks : List Chunk)
    : chunks.length ≤ (chunks.flatMap Chunk.bytes).length := by
  induction chunks with
  | nil => simp
  | cons chunk chunks ih =>
      have positive : 0 < chunk.bytes.length := by
        simp only [Chunk.bytes, List.length_append, Text.octets_length]
        omega
      simp only [List.flatMap_cons, List.length_append, List.length_cons]
      omega

theorem strip?_append (start bytes : List UInt8)
    : readHead?.strip? start (start ++ bytes) = some bytes := by
  induction start with
  | nil => cases bytes <;> rfl
  | cons b start ih => simp [readHead?.strip?, ih]

-----------------------------------------------------------------------------------------
-- What is written before the pixels
-----------------------------------------------------------------------------------------

/-- Texts that can be written are written and taken in again, by induction on them. -/
theorem exists_textChunks {entries : List (String × String)}
    (writable : ∀ entry ∈ entries, Writable entry)
    : ∃ chunks,
        entries.mapM textChunk? = some chunks
        ∧ (∀ chunk ∈ chunks, chunk.name = Chunk.text ∧ chunk.Fits)
        ∧ ∀ head : Head,
            chunks.foldlM Head.add? head = some { head with texts := head.texts ++ entries } := by
  induction entries with
  | nil => exact ⟨[], rfl, by simp, by simp⟩
  | cons entry entries ih =>
      obtain ⟨chunks, written, fits, read⟩ :=
        ih fun other member => writable other (by simp [member])
      obtain ⟨data, first, short, told⟩ := (writable entry (by simp)).textChunk?
      refine ⟨⟨Chunk.text, data⟩ :: chunks, by simp [first, written], ?_, ?_⟩
      · intro chunk member
        rcases List.mem_cons.mp member with rfl | later
        · exact ⟨rfl, rfl, short⟩
        · exact fits chunk later
      · intro head
        have added : head.add? ⟨Chunk.text, data⟩
            = some { head with texts := head.texts ++ [entry] } := by
          simp [Head.add?, told, show Chunk.text ≠ Chunk.header by decide,
            show Chunk.text ≠ Chunk.palette by decide,
            show Chunk.text ≠ Chunk.transparency by decide]
        simp [added, read]

/-- Transparency of gray or coloured samples that have less than sixteen bits: each sample is cut
down to one octet when it is read.
-/
def Head.CutsSamples (head : Head) : Prop :=
  head.transparency.isSome
  ∧ (head.header.color = .grayscale ∨ head.header.color = .rgb)
  ∧ head.header.depth < 16

instance (head : Head) : Decidable head.CutsSamples := inferInstanceAs (Decidable (_ ∧ _))

/-- Transparency never takes more room than the data that it is read from. -/
theorem length_le_of_transparencyOf? {head : Head} {data kept : List UInt8}
    (read : transparencyOf? head data = some kept)
    : kept.length ≤ data.length := by
  simp only [transparencyOf?] at read
  split at read
  · split at read <;> simp only [Option.some.injEq, reduceCtorEq] at read
    split at read <;> simp [← read]
  · split at read <;> simp only [Option.some.injEq, reduceCtorEq] at read
    split at read <;> simp [← read]
  · simp only [Option.ite_none_right_eq_some, Option.some.injEq] at read
    simp [← read.2]
  · cases read
  · cases read

/-- Transparency that was read is read once more unless its samples were cut down. -/
theorem transparencyOf?_kept {head : Head} (other : Head) {data kept : List UInt8}
    (present : head.transparency = some kept)
    (read : transparencyOf? head data = some kept)
    (format : other.header.color = head.header.color ∧ other.header.depth = head.header.depth)
    (palette : other.palette = head.palette)
    : transparencyOf? other kept = if head.CutsSamples then none else some kept := by
  simp only [transparencyOf?, format.1, format.2, palette] at read ⊢
  simp only [Head.CutsSamples, present]
  cases color : head.header.color with
  | grayscale | rgb =>
      by_cases shallow : head.header.depth < 16
      · simp only [color, shallow, if_true] at read
        split at read <;> cases read
        simp [shallow]
      · simp only [color, shallow, if_false] at read
        split at read <;> cases read
        simp [shallow]
  | indexed => simp_all
  | grayscaleAlpha | rgba => simp [color] at read

/-- A chunk for data that is there has its name, and can be written if the data is short. -/
theorem fits_of_mem_optionalChunk {name : List UInt8} {data : Option (List UInt8)} {chunk : Chunk}
    (named : name.length = 4) (short : ∀ found ∈ data, found.length < 256 ^ 4)
    (member : chunk ∈ optionalChunk name data)
    : chunk.name = name ∧ chunk.Fits := by
  obtain ⟨found, present, rfl⟩ := Option.map_eq_some_iff.mp (Option.mem_toList.mp member)
  exact ⟨rfl, named, short found present⟩

/-- What is told of a picture when it is written: it is not interlaced, and has no international
texts.
-/
def Head.written (head : Head) : Head :=
  { head with header := { head.header with interlaced := false }, wideTexts := [] }

/-- The chunks in front of the pixels tell all that is known, unless transparency was cut down. -/
theorem Head.Sound.foldlM_add? {head : Head} (sound : head.Sound) {texts : List Chunk}
    (told
      : ∀ before : Head,
          texts.foldlM Head.add? before = some { before with texts := before.texts ++ head.texts })
    : (optionalChunk Chunk.palette head.palette
          ++ optionalChunk Chunk.transparency head.transparency ++ texts).foldlM Head.add?
        { header := { head.header with interlaced := false } }
      = if head.CutsSamples then none else some head.written := by
  have palette
      : (optionalChunk Chunk.palette head.palette).foldlM Head.add?
          { header := { head.header with interlaced := false } }
        = some { header := { head.header with interlaced := false }, palette := head.palette } := by
    cases head.palette <;>
      simp [optionalChunk, Head.add?, show Chunk.palette ≠ Chunk.header by decide]
  rw [List.foldlM_append, List.foldlM_append, palette]
  simp only [Option.bind_eq_bind, Option.bind_some]
  cases present : head.transparency with
  | none => simp [optionalChunk, told, Head.CutsSamples, Head.written, present]
  | some kept =>
      obtain ⟨data, _, read⟩ := sound.transparency kept present
      have again := transparencyOf?_kept
        { header := { head.header with interlaced := false }, palette := head.palette }
        present read ⟨rfl, rfl⟩ rfl
      by_cases cut : head.CutsSamples <;>
        simp [optionalChunk, Head.add?, show Chunk.transparency ≠ Chunk.header by decide,
          show Chunk.transparency ≠ Chunk.palette by decide, again, cut, told, Head.written,
          present]

-----------------------------------------------------------------------------------------
-- Whole pictures
-----------------------------------------------------------------------------------------

/-- The chunks that a picture is written as. Those in front of the pixels are told apart from the
first one and from those of the pixels, since they are read by another loop.
-/
theorem exists_chunks_of_write? {picture : Picture} {bytes : List UInt8}
    (sound : picture.head.Sound) (written : write? picture = some bytes)
    : ∃ front,
        bytes = fileOf (headerChunk picture.head.written.header
            :: (front ++ ((pixelChunk picture.head.written.header picture.pixels).cut
              ++ [lastChunk])))
        ∧ (∀ chunk ∈ front,
            (chunk.name ≠ Chunk.pixels ∧ chunk.name ≠ Chunk.last) ∧ chunk.Fits)
        ∧ front.foldlM Head.add? { header := picture.head.written.header }
          = if picture.head.CutsSamples then none else some picture.head.written := by
  obtain ⟨texts, encoded, fits, told⟩ := exists_textChunks sound.texts
  simp only [write?, Option.ite_none_left_eq_some, encoded, Option.map_some,
    Option.some.injEq] at written
  refine ⟨_, by rw [← written.2]; simp [List.append_assoc]; rfl, ?_, sound.foldlM_add? told⟩
  intro chunk member
  rcases List.mem_append.mp member with optional | text
  · rcases List.mem_append.mp optional with palette | transparency
    · obtain ⟨name, fit⟩ := fits_of_mem_optionalChunk (by decide) sound.palette palette
      exact ⟨by rw [name]; decide, fit⟩
    · have short : ∀ kept ∈ picture.head.transparency, kept.length < 256 ^ 4 := by
        intro kept present
        obtain ⟨data, short, read⟩ := sound.transparency kept present
        exact Nat.lt_of_le_of_lt (length_le_of_transparencyOf? read) short
      obtain ⟨name, fit⟩ := fits_of_mem_optionalChunk (by decide) short transparency
      exact ⟨by rw [name]; decide, fit⟩
  · obtain ⟨name, fit⟩ := fits chunk text
    exact ⟨by rw [name]; decide, fit⟩

/-- A picture is written if what it tells can be, and indexed pixels have colours. -/
theorem exists_write? {picture : Picture} (sound : picture.head.Sound)
    (colored : picture.head.header.color = .indexed → picture.head.palette ≠ none)
    : ∃ bytes, write? picture = some bytes := by
  obtain ⟨texts, encoded, _, _⟩ := exists_textChunks sound.texts
  have allowed : ¬ (picture.head.header.color = .indexed && picture.head.palette.isNone) := by
    simpa using colored
  exact ⟨_, by rw [write?, if_neg allowed, encoded]; rfl⟩

/-- What a picture is written as from its first pixels on. -/
def pixelBytes (header : Header) (pixels : List UInt8) : List UInt8 :=
  (pixelChunk header pixels).cut.flatMap Chunk.bytes ++ lastChunk.bytes

theorem fits_of_mem_pixelChunk {header : Header} {pixels : List UInt8} {chunk : Chunk}
    (member : chunk ∈ (pixelChunk header pixels).cut)
    : chunk.name = Chunk.pixels ∧ chunk.Fits :=
  Chunk.fits_of_mem_cut (show Chunk.pixels.length = 4 by decide) member

/-- The pixels begin with a chunk of their name. -/
theorem chunkStart?_pixelBytes (header : Header) (pixels : List UInt8)
    : ∃ size more, chunkStart? (pixelBytes header pixels) = some (size, Chunk.pixels, more) := by
  obtain ⟨first, rest, cut⟩ :=
    List.exists_cons_of_ne_nil (Chunk.cut_ne_nil (pixelChunk header pixels))
  obtain ⟨name, fits⟩ := fits_of_mem_pixelChunk (by rw [cut]; exact List.mem_cons_self)
  have start := chunkStart?_bytes fits (rest.flatMap Chunk.bytes ++ lastChunk.bytes)
  rw [name] at start
  exact ⟨_, _, by rw [pixelBytes, cut, List.flatMap_cons, List.append_assoc, start]⟩

/-- What is written before the pixels is read again, unless transparency was cut down. -/
theorem readHead?_write? {picture : Picture} {bytes : List UInt8}
    (sound : picture.head.Sound) (written : write? picture = some bytes)
    : readHead? bytes
      = if picture.head.CutsSamples then none
        else some (picture.head.written,
          pixelBytes picture.head.written.header picture.pixels) := by
  obtain ⟨front, rfl, fits, told⟩ := exists_chunks_of_write? sound written
  have format : picture.head.written.header.Sound :=
    ⟨sound.header.1, sound.header.2, sound.header.3⟩
  have first : (headerChunk picture.head.written.header).Fits :=
    ⟨show Chunk.header.length = 4 by decide, by simp [headerChunk, Header.data]⟩
  have rest : (front ++ ((pixelChunk picture.head.written.header picture.pixels).cut
        ++ [lastChunk])).flatMap Chunk.bytes
      = front.flatMap Chunk.bytes
        ++ pixelBytes picture.head.written.header picture.pixels := by
    simp [pixelBytes]
  have chunks := readChunks_flatMap ((front.flatMap Chunk.bytes
      ++ pixelBytes picture.head.written.header picture.pixels).length + 1)
    { header := picture.head.written.header }
    (by
      have bound := length_le_flatMap_bytes front
      rw [List.length_append]
      omega)
    (fun chunk member => (fits chunk member).2) (fun chunk member => (fits chunk member).1)
    (chunkStart?_pixelBytes picture.head.written.header picture.pixels)
  have whole := chunk?_bytes first (front.flatMap Chunk.bytes
    ++ pixelBytes picture.head.written.header picture.pixels)
  simp only [headerChunk] at whole
  simp only [fileOf, List.flatMap_cons, rest, readHead?, strip?_append, headerChunk, whole,
    Option.bind_eq_bind, Option.bind_some, decide_true, Bool.and_self, if_true,
    Header.ofData?_data format, chunks, told]
  split <;> rfl

/-- The packed pixels that are written are joined again. -/
theorem readData_pixelBytes (header : Header) (pixels : List UInt8)
    : readData ((pixelBytes header pixels).length + 1) (pixelBytes header pixels)
      = some (pixelChunk header pixels).data := by
  have enough : (pixelChunk header pixels).cut.length < (pixelBytes header pixels).length + 1 := by
    have bound := length_le_flatMap_bytes (pixelChunk header pixels).cut
    simp only [pixelBytes, List.length_append]
    omega
  have last := chunkStart?_bytes (⟨by decide, by decide⟩ : lastChunk.Fits) []
  rw [List.append_nil] at last
  have data := readData_flatMap _ enough (fun chunk member => fits_of_mem_pixelChunk member)
    ⟨_, _, last⟩
  rwa [Chunk.flatMap_data_cut] at data

/-- A picture that is written is read again, unless its transparency was cut down. -/
theorem read?_write? {picture : Picture} {bytes : List UInt8} (sound : picture.head.Sound)
    (full
      : picture.pixels.length
        = picture.head.header.height * picture.head.header.rowLength picture.head.header.width)
    (written : write? picture = some bytes)
    : read? bytes
      = if picture.head.CutsSamples then none
        else some ⟨picture.head.written, picture.pixels⟩ := by
  obtain ⟨checksum, unpacked⟩ := Deflate.unpack?_pack (plainRows
    (picture.head.written.header.rowLength picture.head.written.header.width)
    picture.head.written.header.height picture.pixels)
  obtain ⟨rows, rowsRead, joined⟩ :=
    picture?_plainRows (show picture.head.written.header.interlaced = false from rfl) full
  simp only [read?, readHead?_write? sound written]
  split
  · rfl
  · simp only [Option.bind_eq_bind, Option.bind_some, readData_pixelBytes, pixelChunk, unpacked,
      rowsRead, joined]

/-- What is read as a picture can be written, and has as many pixels as its size gives. -/
theorem sound_of_read? {bytes : List UInt8} {picture : Picture}
    (read : read? bytes = some picture)
    : picture.head.Sound
      ∧ picture.pixels.length
        = picture.head.header.height
          * picture.head.header.rowLength picture.head.header.width := by
  simp only [read?, Option.bind_eq_bind, Option.bind_eq_some_iff, Prod.exists,
    Option.some.injEq] at read
  obtain ⟨head, rest, told, _, _, _, _, rows, rowsRead, rfl⟩ := read
  exact ⟨sound_of_readHead? told, picture?_length rowsRead⟩

end Publication.Image.Png
