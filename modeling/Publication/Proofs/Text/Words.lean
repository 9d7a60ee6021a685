import Publication.Proofs.Text.Lines

/-! Words of a text, and the letters in them. A word stands between blanks or at an end of the text,
and has no blank in it; so a text has the words of its pieces between blanks, and words with spaces
between them are cut apart again. A capital of ASCII has its small letter behind it at a fixed
distance, and no other character has another case.
-/

namespace Publication.Text

variable {s t word blanks : List Char} {c : Char}

-----------------------------------------------------------------------------------------
-- The case of letters
-----------------------------------------------------------------------------------------

theorem toLower_of_not_capital (small : ¬ (65 ≤ c.toNat ∧ c.toNat ≤ 90)) : c.toLower = c :=
  dif_neg small

theorem toNat_toLower_of_capital (capital : 65 ≤ c.toNat ∧ c.toNat ≤ 90)
    : c.toLower.toNat = c.toNat + 32 := by
  have moved : c.toLower.val = c.val + 32 := congrArg Char.val (dif_pos capital)
  have most : c.val.toNat ≤ 90 := capital.2
  rw [Char.toNat, moved, UInt32.toNat_add]
  exact Nat.mod_eq_of_lt (Nat.lt_of_le_of_lt (Nat.add_le_add_right most 32) (by decide))

theorem toLower_toLower (c : Char) : c.toLower.toLower = c.toLower := by
  by_cases capital : 65 ≤ c.toNat ∧ c.toNat ≤ 90
  · have moved := toNat_toLower_of_capital capital
    exact toLower_of_not_capital (by omega)
  · rw [toLower_of_not_capital capital, toLower_of_not_capital capital]

theorem toLower_of_isBlank (blank : isBlank c = true) : c.toLower = c := by
  refine toLower_of_not_capital fun letter => ?_
  simp only [isBlank, Bool.or_eq_true, Bool.and_eq_true, decide_eq_true_eq, beq_iff_eq] at blank
  omega

/-- A letter or digit becomes a small letter or stays a digit. -/
theorem toLower_of_isAlphanum (plain : c.isAlphanum = true)
    : c.toLower.isLower = true ∨ c.toLower.isDigit = true := by
  by_cases capital : 65 ≤ c.toNat ∧ c.toNat ≤ 90
  · have moved := toNat_toLower_of_capital capital
    have least : 97 ≤ c.toLower.toNat := by omega
    have most : c.toLower.toNat ≤ 122 := by omega
    exact .inl (Bool.and_eq_true_iff.mpr ⟨decide_eq_true least, decide_eq_true most⟩)
  · rw [toLower_of_not_capital capital]
    rcases Bool.or_eq_true_iff.mp plain with letter | digit
    · rcases Bool.or_eq_true_iff.mp letter with upper | lower
      · exact absurd (of_decide_eq_true upper) capital
      · exact .inl lower
    · exact .inr digit

-----------------------------------------------------------------------------------------
-- Texts cut at blanks
-----------------------------------------------------------------------------------------

/-- Behind a blank the words of the rest follow, whatever was begun, by induction on the text. -/
theorem wordsFrom_append_blank (begun s t : List Char) (blank : isBlank c = true)
    : wordsFrom begun (s ++ c :: t) = wordsFrom begun s ++ words t := by
  induction s generalizing begun with
  | nil =>
      simp only [List.nil_append, wordsFrom, blank, if_true]
      split <;> rfl
  | cons d s ih =>
      simp only [List.cons_append, wordsFrom]
      split
      · split <;> simp [ih]
      · exact ih _

theorem words_append_blank (s t : List Char) (blank : isBlank c = true)
    : words (s ++ c :: t) = words s ++ words t :=
  wordsFrom_append_blank [] s t blank

theorem words_cons_blank (s : List Char) (blank : isBlank c = true) : words (c :: s) = words s :=
  words_append_blank [] s blank

/-- Blanks before a text do not count, by induction on them. -/
theorem words_blanks_append (blank : allBlank blanks = true) (s : List Char)
    : words (blanks ++ s) = words s := by
  induction blanks with
  | nil => rfl
  | cons c blanks ih =>
      obtain ⟨first, others⟩ := Bool.and_eq_true_iff.mp blank
      rw [List.cons_append, words_cons_blank _ first, ih others]

/-- Blanks behind a text do not count either. -/
theorem words_append_blanks (s : List Char) (blank : allBlank blanks = true)
    : words (s ++ blanks) = words s := by
  cases blanks with
  | nil => rw [List.append_nil]
  | cons c blanks =>
      obtain ⟨first, others⟩ := Bool.and_eq_true_iff.mp blank
      have none : words blanks = [] := by
        have bare := words_blanks_append others []
        rwa [List.append_nil] at bare
      rw [words_append_blank s blanks first, none, List.append_nil]

/-- Trimming leaves the words of a text. -/
theorem words_trim (s : List Char) : words (trim s) = words s := by
  obtain ⟨front, behind, whole, before, after⟩ := exists_eq_trim s
  calc words (trim s) = words (front ++ trim s ++ behind) := by
        rw [words_append_blanks _ after, words_blanks_append before]
    _ = words s := by rw [← whole]

/-- A word is read on to its end, by induction on it. -/
theorem wordsFrom_of_solid (begun : List Char) (solid : ∀ c ∈ word, isBlank c = false)
    : wordsFrom begun word = wordsFrom (word.reverse ++ begun) [] := by
  induction word generalizing begun with
  | nil => rfl
  | cons c word ih =>
      obtain ⟨first, others⟩ := List.forall_mem_cons.mp solid
      simp only [wordsFrom, first, Bool.false_eq_true, if_false]
      rw [ih _ others]
      simp [wordsFrom]

theorem words_of_isWord (isWord : IsWord word) : words word = [word] := by
  rw [words, wordsFrom_of_solid [] isWord.2]
  simp [wordsFrom, isWord.1]

/-- Words with a space between them are cut apart again, by induction on their number. -/
theorem words_intercalate {found : List (List Char)} (each : ∀ word ∈ found, IsWord word)
    : words (List.intercalate [' '] found) = found := by
  induction found with
  | nil => rfl
  | cons word rest ih =>
      obtain ⟨first, others⟩ := List.forall_mem_cons.mp each
      cases rest with
      | nil => rw [List.intercalate_singleton, words_of_isWord first]
      | cons next rest =>
          rw [List.intercalate_cons_cons, List.append_assoc, List.singleton_append,
            words_append_blank word _ rfl, words_of_isWord first, ih others]
          rfl

-----------------------------------------------------------------------------------------
-- Words where they stand
-----------------------------------------------------------------------------------------

/-- A word of a text: blanks or the ends of the text are before it and behind it. -/
def IsWordOf (word s : List Char) : Prop :=
  IsWord word
  ∧ ∃ before behind,
      s = before ++ word ++ behind
      ∧ (∀ c ∈ before.getLast?, isBlank c = true)
      ∧ ∀ c ∈ behind.head?, isBlank c = true

/-- Each word that is found stands somewhere in the text, by induction on what is still unread. -/
theorem exists_of_mem_wordsFrom {begun : List Char} (member : word ∈ wordsFrom begun s)
    : ∃ before behind,
        begun.reverse ++ s = before ++ word ++ behind
        ∧ (∀ c ∈ before.getLast?, isBlank c = true)
        ∧ ∀ c ∈ behind.head?, isBlank c = true := by
  induction s generalizing begun with
  | nil =>
      simp only [wordsFrom] at member
      split at member
      · cases member
      · exact ⟨[], [], by rw [List.mem_singleton.mp member]; simp, by simp, by simp⟩
  | cons c s ih =>
      simp only [wordsFrom] at member
      split at member
      next blank =>
          -- what is found behind the blank stands behind the blank
          have later (member : word ∈ wordsFrom [] s)
              : ∃ before behind,
                  begun.reverse ++ c :: s = before ++ word ++ behind
                  ∧ (∀ c ∈ before.getLast?, isBlank c = true)
                  ∧ ∀ c ∈ behind.head?, isBlank c = true := by
            obtain ⟨before, behind, whole, left, right⟩ := ih member
            refine ⟨begun.reverse ++ c :: before, behind, ?_, ?_, right⟩
            · rw [← List.nil_append s, ← List.reverse_nil, whole]
              simp
            · intro d last
              rw [List.getLast?_append, List.getLast?_cons] at last
              cases empty : before.getLast? with
              | none => simp_all
              | some e => exact left d (by simpa [empty] using last)
          split at member
          · exact later member
          · rcases List.mem_cons.mp member with rfl | member
            · exact ⟨[], c :: s, rfl, by simp, fun d head => by cases head; exact blank⟩
            · exact later member
      next =>
          obtain ⟨before, behind, whole, left, right⟩ := ih member
          exact ⟨before, behind, by simpa using whole, left, right⟩

/-- The words that are found are the words of the text. -/
theorem mem_words_iff : word ∈ words s ↔ IsWordOf word s := by
  constructor
  · exact fun member => ⟨isWord_of_mem_words member, exists_of_mem_wordsFrom member⟩
  · rintro ⟨isWord, before, behind, rfl, left, right⟩
    have alone : words (word ++ behind) = word :: words behind := by
      cases behind with
      | nil => rw [List.append_nil, words_of_isWord isWord]; rfl
      | cons c behind =>
          have blank := right c rfl
          rw [words_append_blank word behind blank, words_of_isWord isWord,
            words_cons_blank behind blank]
          rfl
    rcases List.eq_nil_or_concat before with rfl | ⟨front, c, rfl⟩
    · rw [List.nil_append, alone]
      exact List.mem_cons_self
    · have blank := left c (by simp)
      rw [List.concat_eq_append, List.append_assoc, List.append_assoc, List.singleton_append,
        words_append_blank front _ blank, alone]
      simp

end Publication.Text
