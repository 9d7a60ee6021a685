import Mathlib.Algebra.Group.Nat.Defs
import Mathlib.Data.List.Forall2
import Mathlib.Data.List.Induction
import Publication.Text.Octets
import Publication.Text.Utf8

/-! Numbers and texts survive being written as octets, and octets are cut off where they were
joined. A separator is read only where its octet stands.
-/

namespace Publication.Text

-----------------------------------------------------------------------------------------
-- Numbers
-----------------------------------------------------------------------------------------

@[simp] theorem octets_length (count n : Nat) : (octets count n).length = count := by
  induction count generalizing n with
  | zero => rfl
  | succ count ih => simp [octets, ih]

theorem bigEndian_concat (bytes : List UInt8) (b : UInt8)
    : bigEndian (bytes ++ [b]) = bigEndian bytes * 256 + b.toNat := by
  simp [bigEndian, List.foldl_append]

/-- A number that fits is read back from its octets, by induction on their count. -/
theorem bigEndian_octets (count n : Nat) (fits : n < 256 ^ count)
    : bigEndian (octets count n) = n := by
  induction count generalizing n with
  | zero =>
      have zero : n = 0 := by simpa using fits
      simp [octets, bigEndian, zero]
  | succ count ih =>
      have high : n / 256 < 256 ^ count := by
        rw [Nat.pow_succ] at fits
        exact Nat.div_lt_of_lt_mul (by omega)
      rw [octets, bigEndian_concat, ih _ high, UInt8.toNat_ofNat']
      omega

/-- The number of a list of octets is below the power that their count gives. -/
theorem bigEndian_lt (bytes : List UInt8) : bigEndian bytes < 256 ^ bytes.length := by
  induction bytes using List.reverseRecOn with
  | nil => simp [bigEndian]
  | append_singleton bytes b ih =>
      have low : b.toNat < 256 := b.toNat_lt
      rw [bigEndian_concat, List.length_append, List.length_singleton, Nat.pow_succ]
      omega

theorem littleEndian_octets (count n : Nat) (fits : n < 256 ^ count)
    : littleEndian (octets count n).reverse = n := by
  rw [littleEndian, List.reverse_reverse, bigEndian_octets count n fits]

theorem takeExactly?_append {count : Nat} {front : List UInt8} (rest : List UInt8)
    (length : front.length = count)
    : takeExactly? count (front ++ rest) = some (front, rest) := by
  subst length
  simp [takeExactly?]

/-- Octets that are cut off stood in front of the rest. -/
theorem takeExactly?_eq_some {count : Nat} {bytes found rest : List UInt8}
    (taken : takeExactly? count bytes = some (found, rest))
    : bytes = found ++ rest ∧ found.length = count := by
  simp only [takeExactly?] at taken
  split at taken
  next length =>
      cases taken
      exact ⟨(List.take_append_drop count bytes).symm, length⟩
  next => cases taken

-----------------------------------------------------------------------------------------
-- Octets that go on
-----------------------------------------------------------------------------------------

theorem continuations_of_two {first : Nat} (low : 0xC2 ≤ first) (high : first ≤ 0xDF)
    : continuations first = [(0x80, 0xBF)] := by
  simp [continuations, low, high]

/-- The second octet of three is bounded so that no character has a shorter form or is a surrogate.
-/
theorem continuations_of_three {first : Nat} (low : 0xE0 ≤ first) (high : first ≤ 0xEF)
    : continuations first
      = [(if first = 0xE0 then 0xA0 else 0x80, if first = 0xED then 0x9F else 0xBF),
          (0x80, 0xBF)] := by
  have later : ¬ first ≤ 0xDF := by omega
  by_cases least : first = 0xE0
  · simp [continuations, least]
  · by_cases surrogate : first = 0xED
    · simp [continuations, surrogate]
    · have inside : 0xE1 ≤ first := by omega
      simp [continuations, later, least, surrogate, inside, high]

/-- The second octet of four is bounded so that no character has a shorter form or is too great. -/
theorem continuations_of_four {first : Nat} (low : 0xF0 ≤ first) (high : first ≤ 0xF4)
    : continuations first
      = [(if first = 0xF0 then 0x90 else 0x80, if first = 0xF4 then 0x8F else 0xBF),
          (0x80, 0xBF), (0x80, 0xBF)] := by
  have cases : first = 0xF0 ∨ first = 0xF1 ∨ first = 0xF2 ∨ first = 0xF3 ∨ first = 0xF4 := by
    omega
  rcases cases with rfl | rfl | rfl | rfl | rfl <;> rfl

/-- Only these octets announce more. -/
theorem bounds_of_continuations {first : Nat} (announced : continuations first ≠ [])
    : 0xC2 ≤ first ∧ first ≤ 0xF4 ∧ (first ≤ 0xDF ∨ 0xE0 ≤ first) := by
  by_contra outside
  have two : ¬ (0xC2 ≤ first ∧ first ≤ 0xDF) := by omega
  have three : ¬ (0xE1 ≤ first ∧ first ≤ 0xEF) := by omega
  have four : ¬ (0xF1 ≤ first ∧ first ≤ 0xF3) := by omega
  apply announced
  simp only [continuations, Bool.and_eq_true, decide_eq_true_eq]
  rw [if_neg two, if_neg (by omega), if_neg (by omega), if_neg three, if_neg (by omega),
    if_neg four, if_neg (by omega)]

/-- An octet is within bounds. -/
def InRange (range : Nat × Nat) (octet : UInt8) : Prop :=
  range.1 ≤ octet.toNat ∧ octet.toNat ≤ range.2

section

variable {ranges : List (Nat × Nat)} {more : List UInt8}

theorem matching_of_forall₂ (fits : List.Forall₂ InRange ranges more) (rest : List UInt8)
    : matching ranges (more ++ rest) = ranges.length := by
  induction fits with
  | nil => simp [matching]
  | cons fit _ ih => simp [matching, fit.1, fit.2, ih]

/-- Octets that match all ranges are within them, by induction on the ranges. -/
theorem forall₂_of_matching {octets : List UInt8} (all : matching ranges octets = ranges.length)
    : List.Forall₂ InRange ranges (octets.take ranges.length) := by
  induction ranges generalizing octets with
  | nil => simp
  | cons range ranges ih =>
      obtain ⟨low, high⟩ := range
      cases octets with
      | nil => simp [matching] at all
      | cons octet octets =>
          simp only [matching, Bool.and_eq_true, decide_eq_true_eq] at all
          split at all
          next fit =>
              simp only [List.length_cons, List.take_succ_cons]
              exact .cons fit (ih (by simpa using all))
          next => simp at all

end

-----------------------------------------------------------------------------------------
-- One character
-----------------------------------------------------------------------------------------

section

variable {first : UInt8} {more : List UInt8}

/-- A first octet and as many more as it announces are read as one character. -/
theorem lossy_of_forall₂ (announced : continuations first.toNat ≠ [])
    (fits : List.Forall₂ InRange (continuations first.toNat) more) (fuel : Nat)
    (rest : List UInt8)
    : lossy (fuel + 1) (first :: (more ++ rest))
      = assemble first.toNat more :: lossy fuel rest := by
  have high : ¬ first.toNat < 0x80 := by
    have bounds := bounds_of_continuations announced
    omega
  have length := fits.length_eq
  simp [lossy, high, announced, matching_of_forall₂ fits rest, length]

/-- How the reading of octets begins: with a character of ASCII, one of more octets, or a mark. -/
theorem lossy_cases (fuel : Nat) (first : UInt8) (rest : List UInt8)
    : (first.toNat < 0x80
        ∧ lossy (fuel + 1) (first :: rest) = Char.ofNat first.toNat :: lossy fuel rest)
      ∨ (∃ more count,
          continuations first.toNat ≠ []
          ∧ List.Forall₂ InRange (continuations first.toNat) more
          ∧ lossy (fuel + 1) (first :: rest)
            = assemble first.toNat more :: lossy fuel (rest.drop count))
      ∨ ∃ count,
          lossy (fuel + 1) (first :: rest)
          = Char.ofNat 0xFFFD :: lossy fuel (rest.drop count) := by
  simp only [lossy]
  split
  next ascii => exact .inl ⟨ascii, rfl⟩
  next =>
      split
      next whole =>
          simp only [Bool.and_eq_true, Bool.not_eq_true', List.isEmpty_eq_false_iff,
            decide_eq_true_eq] at whole
          obtain ⟨announced, all⟩ := whole
          exact .inr (.inl ⟨_, _, announced, all ▸ forall₂_of_matching all, rfl⟩)
      next => exact .inr (.inr ⟨_, rfl⟩)

/-- What is put together of several octets is not in ASCII. -/
theorem exists_assemble (announced : continuations first.toNat ≠ [])
    (fits : List.Forall₂ InRange (continuations first.toNat) more)
    : ∃ n, 0x80 ≤ n ∧ assemble first.toNat more = Char.ofNat n := by
  refine ⟨_, ?_, rfl⟩
  obtain ⟨low, high, kinds⟩ := bounds_of_continuations announced
  rcases kinds with two | later
  · rw [continuations_of_two low two] at fits
    obtain _ | ⟨second, _ | _⟩ := fits
    simp only [InRange] at second
    simp only [List.length_singleton, List.foldl_cons, List.foldl_nil]
    omega
  · by_cases three : first.toNat ≤ 0xEF
    · rw [continuations_of_three later three] at fits
      obtain _ | ⟨second, _ | ⟨third, _ | _⟩⟩ := fits
      simp only [InRange] at second third
      simp only [List.length_cons, List.length_nil, List.foldl_cons, List.foldl_nil]
      split_ifs at second <;> omega
    · rw [continuations_of_four (by omega) high] at fits
      obtain _ | ⟨second, _ | ⟨third, _ | ⟨fourth, _ | _⟩⟩⟩ := fits
      simp only [InRange] at second third fourth
      simp only [List.length_cons, List.length_nil, List.foldl_cons, List.foldl_nil]
      split_ifs at second <;> omega

end

section

variable {a b c d : UInt8}

theorem lossy_two (low : 0xC2 ≤ a.toNat) (high : a.toNat ≤ 0xDF) (second : InRange (0x80, 0xBF) b)
    (fuel : Nat) (rest : List UInt8)
    : lossy (fuel + 1) (a :: b :: rest)
      = Char.ofNat (a.toNat % 32 * 64 + b.toNat % 64) :: lossy fuel rest := by
  have ranges := continuations_of_two low high
  have fits : List.Forall₂ InRange (continuations a.toNat) [b] := by
    rw [ranges]
    exact .cons second .nil
  exact lossy_of_forall₂ (by simp [ranges]) fits fuel rest

theorem lossy_three (low : 0xE0 ≤ a.toNat) (high : a.toNat ≤ 0xEF)
    (long : a.toNat = 0xE0 → 0xA0 ≤ b.toNat) (free : a.toNat = 0xED → b.toNat ≤ 0x9F)
    (second : InRange (0x80, 0xBF) b) (third : InRange (0x80, 0xBF) c) (fuel : Nat)
    (rest : List UInt8)
    : lossy (fuel + 1) (a :: b :: c :: rest)
      = Char.ofNat ((a.toNat % 16 * 64 + b.toNat % 64) * 64 + c.toNat % 64)
          :: lossy fuel rest := by
  have ranges := continuations_of_three low high
  have fits : List.Forall₂ InRange (continuations a.toNat) [b, c] := by
    rw [ranges]
    refine .cons ⟨?_, ?_⟩ (.cons third .nil)
    · change (if a.toNat = 0xE0 then 0xA0 else 0x80) ≤ b.toNat
      split
      next least => exact long least
      next => exact second.1
    · change b.toNat ≤ if a.toNat = 0xED then 0x9F else 0xBF
      split
      next surrogates => exact free surrogates
      next => exact second.2
  exact lossy_of_forall₂ (by simp [ranges]) fits fuel rest

theorem lossy_four (low : 0xF0 ≤ a.toNat) (high : a.toNat ≤ 0xF4)
    (long : a.toNat = 0xF0 → 0x90 ≤ b.toNat) (least : a.toNat = 0xF4 → b.toNat ≤ 0x8F)
    (second : InRange (0x80, 0xBF) b) (third : InRange (0x80, 0xBF) c)
    (fourth : InRange (0x80, 0xBF) d) (fuel : Nat) (rest : List UInt8)
    : lossy (fuel + 1) (a :: b :: c :: d :: rest)
      = Char.ofNat
            (((a.toNat % 8 * 64 + b.toNat % 64) * 64 + c.toNat % 64) * 64 + d.toNat % 64)
          :: lossy fuel rest := by
  have ranges := continuations_of_four low high
  have fits : List.Forall₂ InRange (continuations a.toNat) [b, c, d] := by
    rw [ranges]
    refine .cons ⟨?_, ?_⟩ (.cons third (.cons fourth .nil))
    · change (if a.toNat = 0xF0 then 0x90 else 0x80) ≤ b.toNat
      split
      next first => exact long first
      next => exact second.1
    · change b.toNat ≤ if a.toNat = 0xF4 then 0x8F else 0xBF
      split
      next last => exact least last
      next => exact second.2
  exact lossy_of_forall₂ (by simp [ranges]) fits fuel rest

end

/-- What a character is written as is read as that character. -/
theorem lossy_utf8EncodeChar (c : Char) (fuel : Nat) (rest : List UInt8)
    : lossy (fuel + 1) (String.utf8EncodeChar c ++ rest) = c :: lossy fuel rest := by
  have octet {n : Nat} (small : n < 256) : (UInt8.ofNat n).toNat = n := by
    rw [UInt8.toNat_ofNat', Nat.mod_eq_of_lt small]
  have valid := c.valid
  have same : Char.ofNat c.val.toNat = c := Char.ofNat_toNat c
  simp only [UInt32.isValidChar, Nat.isValidChar] at valid
  simp only [String.utf8EncodeChar]
  generalize c.val.toNat = v at valid same
  have last := octet (show v % 64 + 128 < 256 by omega)
  have third := octet (show v / 64 % 64 + 128 < 256 by omega)
  have second := octet (show v / 4096 % 64 + 128 < 256 by omega)
  split
  next one => simp [lossy, octet (show v < 256 by omega), same, Nat.lt_succ_of_le one]
  split
  next two =>
      have first := octet (show v / 64 % 32 + 192 < 256 by omega)
      have read := lossy_two (a := UInt8.ofNat (v / 64 % 32 + 192)) (by omega) (by omega)
        (b := UInt8.ofNat (v % 64 + 128)) ⟨by omega, by omega⟩ fuel rest
      refine read.trans (congrArg (· :: _) (Eq.trans (congrArg Char.ofNat ?_) same))
      omega
  split
  next three =>
      have first := octet (show v / 4096 % 16 + 224 < 256 by omega)
      have read := lossy_three (a := UInt8.ofNat (v / 4096 % 16 + 224)) (by omega) (by omega)
        (b := UInt8.ofNat (v / 64 % 64 + 128)) (by omega) (by omega) ⟨by omega, by omega⟩
        (c := UInt8.ofNat (v % 64 + 128)) ⟨by omega, by omega⟩ fuel rest
      refine read.trans (congrArg (· :: _) (Eq.trans (congrArg Char.ofNat ?_) same))
      omega
  next =>
      have first := octet (show v / 262144 % 8 + 240 < 256 by omega)
      have read := lossy_four (a := UInt8.ofNat (v / 262144 % 8 + 240)) (by omega) (by omega)
        (b := UInt8.ofNat (v / 4096 % 64 + 128)) (by omega) (by omega) ⟨by omega, by omega⟩
        (c := UInt8.ofNat (v / 64 % 64 + 128)) ⟨by omega, by omega⟩
        (d := UInt8.ofNat (v % 64 + 128)) ⟨by omega, by omega⟩ fuel rest
      refine read.trans (congrArg (· :: _) (Eq.trans (congrArg Char.ofNat ?_) same))
      omega

-----------------------------------------------------------------------------------------
-- Texts
-----------------------------------------------------------------------------------------

/-- An octet of ASCII stands for the character that has its number. -/
theorem toNat_of_mem_utf8EncodeChar {c : Char} {octet : UInt8}
    (member : octet ∈ String.utf8EncodeChar c) (ascii : octet.toNat < 0x80)
    : c.toNat = octet.toNat := by
  simp only [String.utf8EncodeChar] at member
  change c.val.toNat = octet.toNat
  generalize c.val.toNat = v at member
  split_ifs at member <;> simp only [List.mem_cons, List.not_mem_nil, or_false] at member
  · rw [member, UInt8.toNat_ofNat']
    omega
  all_goals
    exfalso
    rcases member with rfl | rfl | rfl | rfl <;> rw [UInt8.toNat_ofNat'] at ascii <;> omega

/-- A text is written character by character. -/
theorem utf8_eq_flatMap (text : String)
    : utf8 text = text.toList.flatMap String.utf8EncodeChar := by
  have whole : text.toByteArray = text.toList.utf8Encode := by
    rw [← String.toByteArray_ofList, String.ofList_toList]
  rw [utf8, String.toUTF8_eq_toByteArray, whole, List.utf8Encode]
  simp

/-- What characters are written as is read as these, by induction on them. -/
theorem lossy_flatMap {fuel : Nat} {s : List Char}
    (enough : (s.flatMap String.utf8EncodeChar).length ≤ fuel)
    : lossy fuel (s.flatMap String.utf8EncodeChar) = s := by
  induction s generalizing fuel with
  | nil => cases fuel <;> rfl
  | cons c s ih =>
      rw [List.flatMap_cons, List.length_append] at enough
      have some := List.length_pos_iff.mpr (@String.utf8EncodeChar_ne_nil c)
      cases fuel with
      | zero => omega
      | succ fuel => rw [List.flatMap_cons, lossy_utf8EncodeChar, ih (by omega)]

/-- What a text is written as is read as that text. -/
theorem ofUtf8Lossy_utf8 (text : String) : ofUtf8Lossy (utf8 text) = text.toList := by
  rw [ofUtf8Lossy, utf8_eq_flatMap]
  exact lossy_flatMap (Nat.le_refl _)

/-- Only the number of a character stands for it, unless that is zero. -/
theorem eq_of_ofNat_eq {n : Nat} {c : Char} (same : Char.ofNat n = c) (some : c.toNat ≠ 0)
    : n = c.toNat := by
  by_cases valid : n.isValidChar
  · have numbers := congrArg Char.toNat same
    rwa [Char.ofNat, dif_pos valid] at numbers
  · rw [Char.ofNat, dif_neg valid] at same
    exact absurd (congrArg Char.toNat same.symm) some

/-- A separator is read only where its octet stands, by induction on what may be read. -/
theorem slash_mem_of_lossy {fuel : Nat} {octets : List UInt8} (read : '/' ∈ lossy fuel octets)
    : 0x2F ∈ octets := by
  induction fuel generalizing octets with
  | zero => cases read
  | succ fuel ih =>
      cases octets with
      | nil => cases read
      | cons first rest =>
          have later {c : Char} {count : Nat} (other : c ≠ '/')
              (read : '/' ∈ c :: lossy fuel (rest.drop count))
              : 0x2F ∈ first :: rest := by
            rcases List.mem_cons.mp read with here | read
            · exact absurd here.symm other
            · exact List.mem_cons_of_mem first (List.mem_of_mem_drop (ih read))
          rcases lossy_cases fuel first rest with
            ⟨ascii, step⟩ | ⟨more, count, announced, fits, step⟩ | ⟨count, step⟩
          · rw [step] at read
            rcases List.mem_cons.mp read with here | read
            · have number := eq_of_ofNat_eq here.symm (by decide)
              exact List.mem_cons.mpr (.inl (UInt8.toNat_inj.mp number.symm))
            · exact List.mem_cons_of_mem first (ih read)
          · obtain ⟨n, great, same⟩ := exists_assemble announced fits
            rw [step, same] at read
            refine later (fun slash => ?_) read
            have number : n = 0x2F := eq_of_ofNat_eq slash (by decide)
            omega
          · rw [step] at read
            exact later (by decide) read

end Publication.Text
