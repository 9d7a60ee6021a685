import Publication.Json.Reader
import Publication.Json.Writer

/-! What is written of a text, a truth value or a number is read back. The text that follows stays a
variable; only a number has to be told from what follows it.
-/

namespace Publication.Json

open Publication.Number
open Publication.Text

-----------------------------------------------------------------------------------------
-- Characters
-----------------------------------------------------------------------------------------

/-- The four digits by which a control character is written give its number. -/
theorem readHex_control {n : Nat} (control : n < 0x20) (rest : List Char)
    : readHex ('0' :: '0' :: hexDigit (n / 16) :: hexDigit (n % 16) :: rest) = .ok (n, rest) := by
  have digits
      : ∀ n < 0x20,
          4 ≤ octetCount ['0', '0', hexDigit (n / 16), hexDigit (n % 16)]
          ∧ ['0', '0', hexDigit (n / 16), hexDigit (n % 16)].mapM hexValue?
            = some [0, 0, n / 16, n % 16] := by
    decide
  obtain ⟨long, values⟩ := digits n control
  simp only [readHex, List.take_succ_cons, List.take_zero, List.drop_succ_cons, List.drop_zero,
    if_neg (Nat.not_lt.mpr long), values]
  congr 2
  omega

/-- A character given by number is read behind its backslash. -/
theorem readEscape_control {c : Char} (control : c.toNat < 0x20) (rest : List Char)
    : readEscape ('u' :: '0' :: '0' :: hexDigit (c.toNat / 16) :: hexDigit (c.toNat % 16) :: rest)
      = .ok (c, rest) := by
  have low : ¬ (0xDC00 ≤ c.toNat ∧ c.toNat ≤ 0xDFFF) := by omega
  have plain : c.toNat < 0xD800 ∨ 0xDBFF < c.toNat := by omega
  simp [readEscape, readCodePoint, readHex_control control rest, low, plain, Char.ofNat_toNat]

/-- A written character is read as itself, one case for each way of writing it. -/
theorem readCharacters_escaped (fuel : Nat) (done : List Char) (c : Char) (rest : List Char)
    : readCharacters (fuel + 1) done (escaped c ++ rest)
      = readCharacters fuel (c :: done) rest := by
  have named (letter : Char) (read : readEscape (letter :: rest) = .ok (c, rest))
      : readCharacters (fuel + 1) done ('\\' :: letter :: rest)
        = readCharacters fuel (c :: done) rest := by
    simp [readCharacters, read]
  have numbered {n : Nat} (same : c.toNat = n) : c = Char.ofNat n := by
    rw [← same, Char.ofNat_toNat]
  simp only [escaped]
  split
  next quote => exact named '"' (by rw [quote]; rfl)
  split
  next backslash => exact named '\\' (by rw [backslash]; rfl)
  split
  next feed => exact named 'n' (by rw [feed]; rfl)
  split
  next carriage => exact named 'r' (by rw [carriage]; rfl)
  split
  next tab => exact named 't' (by rw [tab]; rfl)
  split
  next back => exact named 'b' (by rw [numbered back]; rfl)
  split
  next page => exact named 'f' (by rw [numbered page]; rfl)
  split
  next control =>
      simp [readCharacters, readEscape_control control rest]
  next quote backslash _ _ _ _ _ visible =>
      simp [readCharacters, quote, backslash, visible]

/-- A written text is read up to its quote, by induction on the text. -/
theorem readCharacters_flatMap (text done : List Char) (rest : List Char) {fuel : Nat}
    (enough : text.length < fuel)
    : readCharacters fuel done (text.flatMap escaped ++ '"' :: rest)
      = .ok (String.ofList (done.reverse ++ text), rest) := by
  induction text generalizing done fuel with
  | nil =>
      obtain ⟨fuel, rfl⟩ := Nat.exists_eq_add_one.mpr enough
      simp [readCharacters]
  | cons c text ih =>
      obtain ⟨fuel, rfl⟩ := Nat.exists_eq_add_one.mpr (Nat.zero_lt_of_lt enough)
      rw [List.flatMap_cons, List.append_assoc, readCharacters_escaped,
        ih (c :: done) (Nat.lt_of_succ_lt_succ enough)]
      simp

/-- Each character takes at least one place. -/
theorem length_le_flatMap_escaped (text : List Char)
    : text.length ≤ (text.flatMap escaped).length := by
  have place (c : Char) : 1 ≤ (escaped c).length := by
    grind [escaped]
  induction text with
  | nil => simp
  | cons c text ih =>
      simp only [List.flatMap_cons, List.length_append, List.length_cons]
      have := place c
      omega

/-- A text in quotes is read from behind the first one. -/
theorem readText_quoted (text : String) (rest : List Char)
    : readText (text.toList.flatMap escaped ++ '"' :: rest) = .ok (text, rest) := by
  have places := length_le_flatMap_escaped text.toList
  rw [readText, readCharacters_flatMap]
  · simp
  · simp only [List.length_append, List.length_cons]
    omega

-----------------------------------------------------------------------------------------
-- Numbers
-----------------------------------------------------------------------------------------

/-- A text that does not go on with a number. -/
def Ends (rest : List Char) : Prop := ∀ c ∈ rest.head?, c = ',' ∨ c = '\n'

theorem ends_nil : Ends [] := fun _ member => nomatch member

theorem ends_comma (rest : List Char) : Ends (',' :: rest) := by simp [Ends]

theorem ends_newline (rest : List Char) : Ends ('\n' :: rest) := by simp [Ends]

/-- No digit makes a number smaller. -/
theorem le_ofDigitChars (digits : List Char) (n : Nat) : n ≤ Nat.ofDigitChars 10 digits n := by
  induction digits generalizing n with
  | nil => exact Nat.le_refl n
  | cons d digits ih =>
      rw [Nat.ofDigitChars_cons]
      exact Nat.le_trans (by omega) (ih _)

/-- Digits are added as long as their number fits, up to what is not a digit; by induction on them.
-/
theorem addDigits_append {digits rest : List Char} (all : ∀ d ∈ digits, d.isDigit = true)
    (ends : Ends rest) (n count : Nat) (fits : Nat.ofDigitChars 10 digits n < Nat.pow 2 64)
    : addDigits n count (digits ++ rest)
      = (Nat.ofDigitChars 10 digits n, count + digits.length, rest) := by
  induction digits generalizing n count with
  | nil =>
      cases rest with
      | nil => rfl
      | cons c rest =>
          have other : c.isDigit = false := by
            rcases ends c rfl with rfl | rfl <;> rfl
          simp [addDigits, other, Nat.ofDigitChars]
  | cons d digits ih =>
      rw [Nat.ofDigitChars_cons] at fits ⊢
      have next : n * 10 + digitOf d = 10 * n + (d.toNat - '0'.toNat) := by
        rw [Nat.mul_comm]
        rfl
      have small : 10 * n + (d.toNat - '0'.toNat) < Nat.pow 2 64 :=
        Nat.lt_of_le_of_lt (le_ofDigitChars digits _) fits
      rw [List.cons_append, addDigits]
      simp only [next, all d List.mem_cons_self, small, decide_true, Bool.and_self, if_true]
      rw [ih (fun d member => all d (List.mem_cons_of_mem _ member)) _ _ fits, List.length_cons,
        Nat.add_right_comm, Nat.add_assoc]

/-- A number begins with a digit. -/
theorem exists_toDigits_eq_cons (n : Nat)
    : ∃ d rest, Nat.toDigits 10 n = d :: rest ∧ d.isDigit = true := by
  cases digits : Nat.toDigits 10 n with
  | nil => exact absurd digits Nat.toDigits_ne_nil
  | cons d rest =>
      have member : d ∈ Nat.toDigits 10 n := by rw [digits]; exact List.mem_cons_self
      exact ⟨d, rest, rfl, Nat.isDigit_of_mem_toDigits (by decide) (by decide) member⟩

theorem ne_of_isDigit {c d : Char} (digit : d.isDigit = true) (other : c.isDigit = false)
    : d ≠ c := by
  rintro rfl
  rw [digit] at other
  cases other

/-- Only zero is written with a zero in front, by induction on the number of digits. -/
theorem head?_toDigits {n : Nat} (positive : 0 < n) : (Nat.toDigits 10 n).head? ≠ some '0' := by
  induction n using Nat.strongRecOn with
  | ind n ih =>
      rw [Nat.toDigits_eq_if (by decide)]
      split
      next small =>
          have digits : ∀ n < 10, 0 < n → [n.digitChar].head? ≠ some '0' := by decide
          exact digits n small positive
      next large =>
          have front := ih (n / 10) (by omega) (by omega)
          obtain ⟨d, more, digits, _⟩ := exists_toDigits_eq_cons (n / 10)
          simpa [digits] using front

/-- What ends a value ends a number without a fraction. -/
theorem readNumberTail_whole {rest : List Char} (ends : Ends rest) (n : Nat)
    : readNumberTail false n 0 rest = .ok (.integer n, rest) := by
  cases rest with
  | nil => rfl
  | cons c rest => rcases ends c rfl with rfl | rfl <;> rfl

/-- A number of at most 64 bits is read from its digits. -/
theorem readNumber_toDigits {n : Nat} (fits : n < Nat.pow 2 64) {rest : List Char}
    (ends : Ends rest)
    : readNumber false (Nat.toDigits 10 n ++ rest) = .ok (.integer n, rest) := by
  have all (d : Char) (member : d ∈ Nat.toDigits 10 n) : d.isDigit = true :=
    Nat.isDigit_of_mem_toDigits (by decide) (by decide) member
  have value : Nat.ofDigitChars 10 (Nat.toDigits 10 n) 0 = n :=
    Nat.ofDigitChars_toDigits (by decide) (by decide)
  have added := addDigits_append all ends 0 0 (by rw [value]; exact fits)
  rw [value] at added
  have stops : (rest.head?.map Char.isDigit).getD false = false := by
    cases rest with
    | nil => rfl
    | cons c rest => rcases ends c rfl with rfl | rfl <;> rfl
  have kept : rest.takeWhile Char.isDigit = [] ∧ rest.dropWhile Char.isDigit = rest := by
    cases rest with
    | nil => exact ⟨rfl, rfl⟩
    | cons c rest => rcases ends c rfl with rfl | rfl <;> exact ⟨rfl, rfl⟩
  rcases Nat.eq_zero_or_pos n with rfl | positive
  · simp [readNumber, stops, readNumberTail_whole ends]
  · have front := head?_toDigits positive
    obtain ⟨d, more, digits, digit⟩ := exists_toDigits_eq_cons n
    rw [digits] at added front
    have nonzero : d ≠ '0' := fun zero => front (by rw [zero]; rfl)
    rw [digits, List.cons_append]
    rw [List.cons_append] at added
    simp [readNumber, digit, added, kept, readNumberTail_whole ends]

end Publication.Json
