import Publication.Image.Png
import Publication.Proofs.Image.Chunks

/-! What stands before the pixels of a picture is written so that it is read again. The exception
is transparency of gray or coloured samples of less than sixteen bits: it is cut down to one octet
a sample when it is read, and is then too short to be read once more.
-/

namespace Publication.Image.Png

open Publication.Text

-----------------------------------------------------------------------------------------
-- Size and format
-----------------------------------------------------------------------------------------

/-- A size and format as a file can tell it. -/
structure Header.Sound (header : Header) : Prop where
  width : 0 < header.width ∧ header.width < 256 ^ 4
  height : 0 < header.height ∧ header.height < 256 ^ 4
  depth : header.depth ∈ header.color.depths

theorem Color.le_of_mem_depths {color : Color} {depth : Nat} (member : depth ∈ color.depths)
    : depth ≤ 16 := by
  cases color <;> simp [Color.depths] at member <;> omega

theorem Color.ofCode?_code (color : Color)
    : Color.ofCode? (UInt8.ofNat color.code).toNat = some color := by
  cases color <;> rfl

/-- The size and format that a file tells is sound. -/
theorem Header.sound_of_ofData? {data : List UInt8} {header : Header}
    (read : Header.ofData? data = some header)
    : header.Sound := by
  simp only [Header.ofData?] at read
  split at read
  next depth code interlaced rest _ =>
      obtain ⟨color, _, read⟩ := Option.bind_eq_some_iff.mp read
      split at read
      next => cases read
      next proper =>
          simp only [Option.ite_none_right_eq_some, Option.some.injEq] at read
          obtain ⟨member, rfl⟩ := read
          simp only [Bool.or_eq_true, decide_eq_true_eq, not_or] at proper
          have width := bigEndian_lt (data.take 4)
          have height := bigEndian_lt ((data.drop 4).take 4)
          have most (bytes : List UInt8) : 256 ^ (bytes.take 4).length ≤ 256 ^ 4 :=
            Nat.pow_le_pow_right (by decide) (List.length_take_le 4 bytes)
          exact {
            width := ⟨by simp only; omega, Nat.lt_of_lt_of_le width (most _)⟩
            height := ⟨by simp only; omega, Nat.lt_of_lt_of_le height (most _)⟩
            depth := member
          }
  next => cases read

/-- A sound size and format is read back. -/
theorem Header.ofData?_data {header : Header} (sound : header.Sound)
    : Header.ofData? header.data = some header := by
  have width : header.data.take 4 = octets 4 header.width := by
    simp [Header.data, List.append_assoc, List.take_left']
  have height : (header.data.drop 4).take 4 = octets 4 header.height := by
    simp [Header.data, List.append_assoc, List.drop_left', List.take_left']
  have format : header.data.drop 8
      = [UInt8.ofNat header.depth, UInt8.ofNat header.color.code, 0, 0,
          if header.interlaced then 1 else 0] :=
    List.drop_left' (by simp)
  have depth : (UInt8.ofNat header.depth).toNat = header.depth := by
    have small := Color.le_of_mem_depths sound.depth
    rw [UInt8.toNat_ofNat', Nat.mod_eq_of_lt (by omega)]
  simp only [Header.ofData?, format, Color.ofCode?_code, Option.bind_some, width, height,
    bigEndian_octets 4 _ sound.width.2, bigEndian_octets 4 _ sound.height.2, depth]
  have wide : header.width ≠ 0 := Nat.ne_of_gt sound.width.1
  have high : header.height ≠ 0 := Nat.ne_of_gt sound.height.1
  obtain ⟨_, _, _, _, interlaced⟩ := header
  cases interlaced <;> simp_all [sound.depth]

-----------------------------------------------------------------------------------------
-- What a file tells is sound
-----------------------------------------------------------------------------------------

/-- What a file can tell before its pixels: everything in it has come from a chunk. -/
structure Head.Sound (head : Head) : Prop where
  header : head.header.Sound
  palette : ∀ data ∈ head.palette, data.length < 256 ^ 4
  transparency
    : ∀ kept ∈ head.transparency,
        ∃ data, data.length < 256 ^ 4 ∧ transparencyOf? head data = some kept
  texts : ∀ entry ∈ head.texts, Writable entry

/-- Transparency is read in the same way whatever palette takes the place of one. -/
theorem transparencyOf?_congr (left : Head) {right : Head} {data kept : List UInt8}
    (format : left.header.color = right.header.color ∧ left.header.depth = right.header.depth)
    (palette : left.palette.isSome → right.palette.isSome)
    (read : transparencyOf? left data = some kept)
    : transparencyOf? right data = some kept := by
  simp only [transparencyOf?, format.1, format.2] at read ⊢
  cases color : right.header.color with
  | indexed =>
      simp only [color, Option.ite_none_right_eq_some] at read ⊢
      exact ⟨palette read.1, read.2⟩
  | grayscale | rgb | grayscaleAlpha | rgba => simpa only [color] using read

/-- A chunk is taken in as one of five kinds, or passed over. -/
theorem Head.add?_cases {head next : Head} {chunk : Chunk} (added : head.add? chunk = some next)
    : (head.palette = none ∧ next = { head with palette := some chunk.data })
      ∨ (∃ kept, head.transparency = none ∧ transparencyOf? head chunk.data = some kept
          ∧ next = { head with transparency := some kept })
      ∨ (∃ entry, readText? chunk.data = some entry
          ∧ next = { head with texts := head.texts ++ [entry] })
      ∨ (∃ wide, next = { head with wideTexts := head.wideTexts ++ [wide] })
      ∨ next = head := by
  simp only [Head.add?] at added
  split at added
  · cases added
  split at added
  · simp only [Option.ite_none_left_eq_some, Option.some.injEq] at added
    exact .inl ⟨by simpa using added.1, added.2.symm⟩
  split at added
  · simp only [Option.ite_none_left_eq_some, Option.map_eq_some_iff] at added
    obtain ⟨absent, kept, read, rfl⟩ := added
    exact .inr (.inl ⟨kept, by simpa using absent, read, rfl⟩)
  split at added
  · obtain ⟨entry, read, rfl⟩ := Option.map_eq_some_iff.mp added
    exact .inr (.inr (.inl ⟨entry, read, rfl⟩))
  split at added
  · simp only [Option.ite_none_right_eq_some, Option.some.injEq] at added
    exact .inr (.inr (.inr (.inr added.2.symm)))
  split at added
  · obtain ⟨wide, _, rfl⟩ := Option.map_eq_some_iff.mp added
    exact .inr (.inr (.inr (.inl ⟨wide, rfl⟩)))
  · cases added
    exact .inr (.inr (.inr (.inr rfl)))

/-- A sound head stays so when a chunk is taken in. -/
theorem Head.Sound.add? {head next : Head} {chunk : Chunk} (sound : head.Sound)
    (fits : chunk.Fits) (added : head.add? chunk = some next)
    : next.Sound := by
  rcases Head.add?_cases added with
    ⟨absent, rfl⟩ | ⟨kept, absent, read, rfl⟩ | ⟨entry, read, rfl⟩ | ⟨wide, rfl⟩ | rfl
  · refine ⟨sound.header, by simpa using fits.data, ?_, sound.texts⟩
    intro kept member
    obtain ⟨data, short, read⟩ := sound.transparency kept member
    exact ⟨data, short, transparencyOf?_congr head ⟨rfl, rfl⟩ (by simp) read⟩
  · refine ⟨sound.header, sound.palette, ?_, sound.texts⟩
    intro other member
    cases member
    exact ⟨chunk.data, fits.data, read⟩
  · refine ⟨sound.header, sound.palette, sound.transparency, ?_⟩
    intro other member
    rcases List.mem_append.mp member with old | new
    · exact sound.texts other old
    · rw [List.mem_singleton.mp new]
      exact writable_of_readText? fits.data read
  · exact ⟨sound.header, sound.palette, sound.transparency, sound.texts⟩
  · exact sound

/-- What is known when the pixels begin is sound, by induction on the chunks before them. -/
theorem Head.Sound.readChunks {fuel : Nat} {head last : Head} {bytes rest : List UInt8}
    (sound : head.Sound) (read : Png.readChunks fuel head bytes = some (last, rest))
    : last.Sound := by
  induction fuel generalizing head bytes with
  | zero => cases read
  | succ fuel ih =>
      simp only [Png.readChunks, Option.bind_eq_bind, Option.bind_eq_some_iff, Prod.exists] at read
      obtain ⟨_, name, _, _, read⟩ := read
      split at read
      · cases read
        exact sound
      split at read
      · cases read
      simp only [Option.bind_eq_some_iff, Prod.exists] at read
      obtain ⟨framed, more, whole, read⟩ := read
      split at read
      · simp only [Option.bind_eq_some_iff] at read
        obtain ⟨next, added, read⟩ := read
        exact ih (sound.add? (chunk?_fits whole) added) read
      split at read
      · cases read
      · exact ih sound read

/-- What a file tells before its pixels is sound. -/
theorem sound_of_readHead? {bytes rest : List UInt8} {head : Head}
    (read : readHead? bytes = some (head, rest))
    : head.Sound := by
  simp only [readHead?] at read
  split at read
  · cases read
  simp only [Option.bind_eq_bind, Option.bind_eq_some_iff, Prod.exists,
    Option.ite_none_right_eq_some] at read
  obtain ⟨framed, more, _, _, header, told, read⟩ := read
  refine Head.Sound.readChunks ?_ read
  exact ⟨Header.sound_of_ofData? told, by simp, by simp, by simp⟩

end Publication.Image.Png
