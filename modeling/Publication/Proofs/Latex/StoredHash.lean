import Publication.Hash.Sha256
import Publication.Latex.Cache
import Publication.Proofs.FileSystem.Effects
import Publication.Proofs.Image.Pictures

/-! A hash that is stored in an image file is read back from it, and the image stays what it was.
The one exception is transparency whose samples were cut down: the file cannot be read then.
-/

namespace Publication.Hash.Sha256

-----------------------------------------------------------------------------------------
-- Digests
-----------------------------------------------------------------------------------------

/-- Octets have two hexadecimal digits each, by induction on them. -/
theorem length_hex (bytes : List UInt8) : (Text.hex bytes).length = 2 * bytes.length := by
  simp only [Text.hex, String.length_ofList]
  induction bytes with
  | nil => rfl
  | cons b bytes ih =>
      simp only [List.flatMap_cons, List.length_append, List.length_cons, List.length_nil, ih]
      omega

theorem length_hexDigest (text : String) : (hexDigest text).length = 64 := by
  simp [hexDigest, length_hex, digest, octets]

/-- A hexadecimal digit is a character of ASCII. -/
theorem toNat_hexDigit_lt (n : Nat) : (Text.hexDigit n).toNat < 256 := by
  have digits : ∀ c ∈ "0123456789abcdef".toList, c.toNat < 256 := by simp
  rw [Text.hexDigit, List.getD_eq_getElem?_getD]
  cases found : "0123456789abcdef".toList[n]? with
  | none => decide
  | some c => exact digits c (List.mem_of_getElem? found)

theorem toNat_lt_of_mem_hexDigest {text : String} {c : Char} (member : c ∈ (hexDigest text).toList)
    : c.toNat < 256 := by
  simp only [hexDigest, Text.hex, String.toList_ofList, List.mem_flatMap, List.mem_cons,
    List.not_mem_nil, or_false] at member
  obtain ⟨b, _, rfl | rfl⟩ := member <;> exact toNat_hexDigit_lt _

end Publication.Hash.Sha256

namespace Publication.Latex

open Publication.Hash Publication.Image

-----------------------------------------------------------------------------------------
-- Images and the hashes that they carry
-----------------------------------------------------------------------------------------

/-- Two pictures show the same: they agree in size, format, colours, transparency and pixels. -/
structure SameImage (left right : Png.Picture) : Prop where
  width : right.head.header.width = left.head.header.width
  height : right.head.header.height = left.head.header.height
  color : right.head.header.color = left.head.header.color
  depth : right.head.header.depth = left.head.header.depth
  palette : right.head.palette = left.head.palette
  transparency : right.head.transparency = left.head.transparency
  pixels : right.pixels = left.pixels

theorem SameImage.refl (picture : Png.Picture) : SameImage picture picture :=
  ⟨rfl, rfl, rfl, rfl, rfl, rfl, rfl⟩

/-- Showing the same carries over from picture to picture. -/
theorem SameImage.trans {first second third : Png.Picture} (earlier : SameImage first second)
    (later : SameImage second third)
    : SameImage first third where
  width := later.width.trans earlier.width
  height := later.height.trans earlier.height
  color := later.color.trans earlier.color
  depth := later.depth.trans earlier.depth
  palette := later.palette.trans earlier.palette
  transparency := later.transparency.trans earlier.transparency
  pixels := later.pixels.trans earlier.pixels

/-- The hash that the octets of a file carry, if they are a picture and it does. -/
def hashIn? (bytes : List UInt8) : Option String :=
  (Png.readHead? bytes).bind fun (head, _) => hashOf? head

theorem storedHash_of_read {fs : FileSystem} {png : Path} {bytes : List UInt8}
    (file : fs.read png = .ok bytes)
    : storedHash fs png = hashIn? bytes := by
  simp only [storedHash, file, hashIn?]

/-- A file with a hash can be read. -/
theorem exists_of_storedHash {fs : FileSystem} {png : Path} {hash : String}
    (stored : storedHash fs png = some hash)
    : ∃ bytes, fs.read png = .ok bytes ∧ hashIn? bytes = some hash := by
  cases file : fs.read png with
  | ok bytes => exact ⟨bytes, rfl, by rw [← storedHash_of_read file, stored]⟩
  | error e => simp [storedHash, file] at stored

/-- A picture that is written with a hash carries it. -/
theorem hashOf?_withHash (hash : String) (picture : Png.Picture)
    : hashOf? (withHash hash picture).head.written = some hash := by
  have others : (picture.head.texts.filter fun entry => entry.1 ≠ hashKeyword).find?
      (·.1 = hashKeyword) = none := by
    simp
  simp only [hashOf?, withHash, Png.Head.written, List.find?_append, others]
  simp

theorem sameImage_withHash (hash : String) (picture : Png.Picture)
    : SameImage picture
        ⟨(withHash hash picture).head.written, (withHash hash picture).pixels⟩ :=
  ⟨rfl, rfl, rfl, rfl, rfl, rfl, rfl⟩

-----------------------------------------------------------------------------------------
-- Storing a hash
-----------------------------------------------------------------------------------------

/-- A hash is stored where a picture is found, is written with the hash, and replaces the file. -/
theorem storeHash_eq_ok_iff {fs after : FileSystem} {png : Path} {hash : String}
    : storeHash fs png hash = .ok after
      ↔ ∃ bytes picture octets,
          fs.read png = .ok bytes
          ∧ Png.read? bytes = some picture
          ∧ Png.write? (withHash hash picture) = some octets
          ∧ fs.replaceFile png octets = .ok after := by
  constructor
  · intro stored
    simp only [storeHash] at stored
    split at stored
    next => cases stored
    next => cases stored
    next bytes read =>
        split at stored
        next => cases stored
        next picture decoded =>
            split at stored
            next => cases stored
            next octets encoded =>
                split at stored
                next replaced =>
                    cases stored
                    exact ⟨bytes, picture, octets, read, decoded, encoded, replaced⟩
                next => cases stored
  · rintro ⟨bytes, picture, octets, read, decoded, encoded, replaced⟩
    simp only [storeHash, read, decoded, encoded, replaced]

/-- A hash is stored by reading a picture and writing it once more with the hash. -/
theorem storeHash_eq_ok {fs after : FileSystem} {png : Path} {hash : String}
    (stored : storeHash fs png hash = .ok after)
    : ∃ bytes picture rewritten,
        fs.read png = .ok bytes
        ∧ Png.read? bytes = some picture
        ∧ Png.write? (withHash hash picture) = some rewritten
        ∧ fs.Filled png rewritten after := by
  obtain ⟨bytes, picture, rewritten, read, decoded, encoded, replaced⟩ :=
    storeHash_eq_ok_iff.mp stored
  exact ⟨bytes, picture, rewritten, read, decoded, encoded,
    FileSystem.filled_of_replaceFile replaced⟩

/-- When a hash has been stored, nothing but the image file has been written. -/
theorem filled_of_storeHash {fs after : FileSystem} {png : Path} {hash : String}
    (stored : storeHash fs png hash = .ok after)
    : ∃ bytes, fs.Filled png bytes after := by
  obtain ⟨_, _, rewritten, _, _, _, filled⟩ := storeHash_eq_ok stored
  exact ⟨rewritten, filled⟩

/-- Texts that become chunks do so one by one, by induction on them. -/
theorem exists_textChunk?_of_mapM {texts : List (String × String)} {chunks : List Png.Chunk}
    (encoded : texts.mapM Png.textChunk? = some chunks) {entry : String × String}
    (member : entry ∈ texts)
    : ∃ chunk, Png.textChunk? entry = some chunk := by
  induction texts generalizing chunks with
  | nil => cases member
  | cons first rest ih =>
      simp only [List.mapM_cons, Option.pure_def, Option.bind_eq_bind, Option.bind_eq_some_iff,
        Option.some.injEq] at encoded
      obtain ⟨chunk, here, others, later, _⟩ := encoded
      rcases List.mem_cons.mp member with rfl | member
      · exact ⟨chunk, here⟩
      · exact ih later member

/-- A text that is short enough and among those of a picture that was written can be written. -/
theorem writable_of_write? {picture : Png.Picture} {bytes : List UInt8} {entry : String × String}
    (written : Png.write? picture = some bytes) (member : entry ∈ picture.head.texts)
    (proper : 0 ∉ (Png.toLatin1? entry.1).getD [])
    (short : entry.1.length + entry.2.length + 1 < 256 ^ 4)
    : Png.Writable entry := by
  simp only [Png.write?, Option.ite_none_left_eq_some, Option.map_eq_some_iff] at written
  obtain ⟨_, chunks, encoded, _⟩ := written
  obtain ⟨chunk, encoded⟩ := exists_textChunk?_of_mapM encoded member
  simp only [Png.textChunk?, Option.bind_eq_bind, Option.bind_eq_some_iff] at encoded
  obtain ⟨keyword, left, encoded⟩ := encoded
  simp only [Option.ite_none_right_eq_some, Option.bind_eq_some_iff] at encoded
  obtain ⟨isKeyword, text, right, _⟩ := encoded
  have named := Png.latin1_of_toLatin1? left
  have worded := Png.latin1_of_toLatin1? right
  refine ⟨keyword, text, by rw [named, worded], isKeyword, by simpa [left] using proper, ?_⟩
  rw [← Png.latin1_length keyword, ← Png.latin1_length text, named, worded]
  exact short

/-- A picture with a hash tells what can be written, if the picture and the hash do. -/
theorem sound_withHash {picture : Png.Picture} {hash : String} (sound : picture.head.Sound)
    (writable : Png.Writable (hashKeyword, hash))
    : (withHash hash picture).head.Sound := by
  refine ⟨sound.header, sound.palette, sound.transparency, ?_⟩
  intro entry member
  rcases List.mem_append.mp member with old | new
  · exact sound.texts entry (List.mem_filter.mp old).1
  · rw [List.mem_singleton.mp new]
    exact writable

/-- A short hash that was written with a picture can be written. -/
theorem writable_hash_of_write? {picture : Png.Picture} {hash : String} {bytes : List UInt8}
    (short : hash.length + hashKeyword.length + 1 < 256 ^ 4)
    (written : Png.write? (withHash hash picture) = some bytes)
    : Png.Writable (hashKeyword, hash) := by
  have named : (0 : UInt8) ∉ (Png.toLatin1? hashKeyword).getD [] := by decide
  refine writable_of_write? written (List.mem_append_right _ List.mem_cons_self) named ?_
  simpa only [Nat.add_comm hashKeyword.length] using short

/-- The file of a picture with a hash shows the picture and carries the hash, unless samples of its
transparency were cut down.
-/
theorem read?_withHash {picture : Png.Picture} {hash : String} {bytes rewritten : List UInt8}
    (decoded : Png.read? bytes = some picture)
    (short : hash.length + hashKeyword.length + 1 < 256 ^ 4)
    (encoded : Png.write? (withHash hash picture) = some rewritten)
    : (hashIn? rewritten = if picture.head.CutsSamples then none else some hash)
      ∧ Png.read? rewritten
        = if picture.head.CutsSamples then none
          else some ⟨(withHash hash picture).head.written, picture.pixels⟩ := by
  obtain ⟨sound, full⟩ := Png.sound_of_read? decoded
  have carried := sound_withHash sound (writable_hash_of_write? short encoded)
  have cut : (withHash hash picture).head.CutsSamples ↔ picture.head.CutsSamples := Iff.rfl
  constructor
  · rw [hashIn?, Png.readHead?_write? carried encoded]
    simp only [cut]
    split
    · rfl
    · exact hashOf?_withHash hash picture
  · have again := Png.read?_write? carried full encoded
    simp only [cut] at again
    exact again

/-- A file keeps its picture and its texts when a hash is stored, and tells the hash. -/
structure KeptWith (hash : String) (picture : Png.Picture) (png : Path) (after : FileSystem)
    : Prop where
  stored : storedHash after png = some hash
  shown
    : ∃ bytes again,
        after.read png = .ok bytes
        ∧ Png.read? bytes = some again
        ∧ SameImage picture again
        ∧ again.head.texts
          = picture.head.texts.filter (fun entry => entry.1 ≠ hashKeyword) ++ [(hashKeyword, hash)]

/-- What a file tells after a hash was stored in it, or that it cannot be read any more. -/
theorem keptWith_or_lost {fs after : FileSystem} {png : Path} {hash : String} {bytes : List UInt8}
    {picture : Png.Picture}
    (file : fs.read png = .ok bytes) (decoded : Png.read? bytes = some picture)
    (short : hash.length + hashKeyword.length + 1 < 256 ^ 4)
    (stored : storeHash fs png hash = .ok after)
    : if picture.head.CutsSamples then storedHash after png = none
      else KeptWith hash picture png after := by
  obtain ⟨found, same, rewritten, read, redecoded, encoded, filled⟩ := storeHash_eq_ok stored
  obtain rfl : bytes = found := Except.ok.inj (file.symm.trans read)
  obtain rfl : picture = same := Option.some.inj (decoded.symm.trans redecoded)
  obtain ⟨carries, again⟩ := read?_withHash decoded short encoded
  split
  next cut => rw [storedHash_of_read filled.read, carries, if_pos cut]
  next whole =>
      rw [if_neg whole] at carries again
      exact {
        stored := (storedHash_of_read filled.read).trans carries
        shown := ⟨rewritten, _, filled.read, again, sameImage_withHash hash picture, rfl⟩
      }

theorem digest_fits (source : String)
    : (Sha256.hexDigest source).length + hashKeyword.length + 1 < 256 ^ 4 := by
  rw [Sha256.length_hexDigest]
  decide

/-- A hash that was stored is read back, and the file shows the same picture with its other texts in
order before that of the hash, exactly if no samples of its transparency were cut down.
-/
theorem storeHash_keeps_iff {fs after : FileSystem} {png : Path} {hash : String}
    {bytes : List UInt8} {picture : Png.Picture}
    (file : fs.read png = .ok bytes) (decoded : Png.read? bytes = some picture)
    (short : hash.length + hashKeyword.length + 1 < 256 ^ 4)
    (stored : storeHash fs png hash = .ok after)
    : KeptWith hash picture png after ↔ ¬ picture.head.CutsSamples := by
  have ended := keptWith_or_lost file decoded short stored
  constructor
  · intro kept cut
    rw [if_pos cut, kept.stored] at ended
    cases ended
  · intro whole
    rwa [if_neg whole] at ended

/-- A text whose characters are octets is written as such, by induction on it. -/
theorem exists_toLatin1? {text : String} (small : ∀ c ∈ text.toList, c.toNat < 256)
    : ∃ bytes, Png.toLatin1? text = some bytes := by
  rw [Png.toLatin1?]
  generalize text.toList = characters at small
  induction characters with
  | nil => exact ⟨[], rfl⟩
  | cons c characters ih =>
      obtain ⟨bytes, written⟩ := ih fun other member => small other (by simp [member])
      have first : Png.latin1Octet? c = some (UInt8.ofNat c.toNat) :=
        if_pos (small c (by simp))
      exact ⟨_, by rw [List.mapM_cons, first, written]; rfl⟩

/-- The digest of a source can be written into a chunk. -/
theorem writable_digest (source : String)
    : Png.Writable (hashKeyword, Sha256.hexDigest source) := by
  obtain ⟨text, written⟩ : ∃ text, Png.toLatin1? (Sha256.hexDigest source) = some text :=
    exists_toLatin1? fun c member => Sha256.toNat_lt_of_mem_hexDigest member
  have worded := Png.latin1_of_toLatin1? written
  refine ⟨hashKeyword.toUTF8.data.toList, text, by rw [worded]; rfl, by decide, by decide, ?_⟩
  have length : text.length = 64 := by
    rw [← Png.latin1_length, worded, Sha256.length_hexDigest]
  rw [length]
  decide

/-- The digest of a source is stored in the file of a picture that can be written. -/
theorem storeHash_digest {fs : FileSystem} {png : Path} {bytes : List UInt8}
    {picture : Png.Picture} (source : String)
    (file : fs.read png = .ok bytes) (decoded : Png.read? bytes = some picture)
    (colored : picture.head.header.color = .indexed → picture.head.palette ≠ none)
    (plain : FileSystem.endsInSlash png = false)
    : storeHash fs png (Sha256.hexDigest source)
      = .ok (fs.put (png.place fs.here)
          (.file ((Png.write? (withHash (Sha256.hexDigest source) picture)).getD []) false)) := by
  have sound := (Png.sound_of_read? decoded).1
  obtain ⟨rewritten, encoded⟩ :=
    Png.exists_write? (sound_withHash sound (writable_digest source)) colored
  obtain ⟨place, executable, found, held⟩ := (FileSystem.read_eq_ok_iff fs png bytes).mp file
  rw [((FileSystem.locate_eq_ok_iff fs png place).mp found).2.2]
  simp [storeHash, file, decoded, encoded, FileSystem.replaceFile, plain, found, held]

/-- A tree with nothing but an image file. -/
def onlyImage (bytes : List UInt8) : FileSystem := ⟨[], [(["a.png"], .file bytes false)]⟩

/-- Two pixels with colours and transparency, a title and the hash of an earlier source. -/
def tinted : Png.Picture where
  head := {
    header := { width := 2, height := 1, color := .indexed, depth := 8 }
    palette := some [200, 0, 0, 0, 0, 200]
    transparency := some [128, 255]
    texts := [("Title", "Two"), (hashKeyword, "c0ffee")]
  }
  pixels := [1, 0]

/-- A new hash replaces that of a picture with colours and transparency. -/
theorem storeHash_keeps_tinted
    : ∃ bytes after,
        (onlyImage bytes).read ⟨"a.png"⟩ = .ok bytes
        ∧ Png.read? bytes = some tinted
        ∧ storeHash (onlyImage bytes) ⟨"a.png"⟩ "deadbeef" = .ok after
        ∧ KeptWith "deadbeef" tinted ⟨"a.png"⟩ after := by
  have decoded : Png.read? ((Png.write? tinted).getD []) = some tinted := by decide +kernel
  have works : (storeHash (onlyImage ((Png.write? tinted).getD [])) ⟨"a.png"⟩
      "deadbeef").toOption.isSome = true := by
    decide +kernel
  cases stored : storeHash (onlyImage ((Png.write? tinted).getD [])) ⟨"a.png"⟩ "deadbeef" with
  | error e =>
      rw [stored] at works
      cases works
  | ok after =>
      have kept := (storeHash_keeps_iff rfl decoded (by decide) stored).mpr (by decide)
      exact ⟨_, after, rfl, decoded, stored, kept⟩

/-- One gray pixel of eight bits, and transparency of the gray value five. -/
def veiled : List UInt8 :=
  Png.fileOf [Png.headerChunk { width := 1, height := 1, color := .grayscale, depth := 8 },
    ⟨Png.Chunk.transparency, [0, 5]⟩,
    Png.pixelChunk { width := 1, height := 1, color := .grayscale, depth := 8 } [127],
    Png.lastChunk]

/-- It is not so that every hash that was stored is read back. -/
theorem not_forall_storedHash
    : ¬ ∀ (fs after : FileSystem) (png : Path) (hash : String) (bytes : List UInt8)
        (picture : Png.Picture),
          fs.read png = .ok bytes → Png.read? bytes = some picture
          → storeHash fs png hash = .ok after → storedHash after png = some hash := by
  intro claimed
  have readable : (Png.read? veiled).isSome = true := by decide +kernel
  have lost : (storeHash (onlyImage veiled) ⟨"a.png"⟩ "deadbeef").toOption.map
      (storedHash · ⟨"a.png"⟩) = some none := by
    decide +kernel
  obtain ⟨picture, decoded⟩ := Option.isSome_iff_exists.mp readable
  cases stored : storeHash (onlyImage veiled) ⟨"a.png"⟩ "deadbeef" with
  | error e =>
      rw [stored] at lost
      cases lost
  | ok after =>
      have carried := claimed _ after _ _ veiled picture rfl decoded stored
      rw [stored] at lost
      simp [Except.toOption, carried] at lost

end Publication.Latex
