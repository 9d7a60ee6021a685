import Publication.Naming.Registry
import Publication.Naming.Slug
import Publication.Proofs.Text.Words

/-! Claimed names. A name that is handed out was not claimed before, and consists of the characters
of the name it is derived from, of digits and of a low line.
-/

namespace Publication.Naming

open Publication.Text

-----------------------------------------------------------------------------------------
-- Numbers in names
-----------------------------------------------------------------------------------------

theorem isDigit_of_mem_toString {n : Nat} {c : Char} (member : c ∈ (toString n).toList)
    : c.isDigit = true := by
  rw [show toString n = n.repr from rfl, Nat.toList_repr] at member
  exact Nat.isDigit_of_mem_toDigits (by decide) (by decide) member

theorem not_mem_toString {n : Nat} {c : Char} (other : c.isDigit = false)
    : c ∉ (toString n).toList := by
  intro member
  rw [isDigit_of_mem_toString member] at other
  cases other

/-- Different numbers are written differently. -/
theorem toString_inj {m n : Nat} (same : toString m = toString n) : m = n := by
  have digits := congrArg String.toList same
  rw [show toString m = m.repr from rfl, show toString n = n.repr from rfl, Nat.toList_repr,
    Nat.toList_repr] at digits
  have value := congrArg (Nat.ofDigitChars 10 · 0) digits
  simpa using value

/-- Names with the same beginning and different numbers are different. -/
theorem numbered_inj {stem : String} {m n : Nat} (same : stem ++ toString m = stem ++ toString n)
    : m = n := by
  have texts := congrArg String.toList same
  simp only [String.toList_append] at texts
  exact toString_inj (String.toList_inj.mp (List.append_cancel_left texts))

-----------------------------------------------------------------------------------------
-- Free names
-----------------------------------------------------------------------------------------

/-- Different candidates for a name are different names. -/
theorem candidate_inj {base : String} {j k : Nat} (same : candidate base j = candidate base k)
    : j = k := by
  have length (n : Nat) : base.length < (candidate base (n + 1)).length := by
    simp only [candidate, String.length_append]
    have mark : "_".length = 1 := rfl
    omega
  cases j with
  | zero =>
      cases k with
      | zero => rfl
      | succ k => exact absurd (congrArg String.length same) (Nat.ne_of_lt (length k))
  | succ j =>
      cases k with
      | zero => exact absurd (congrArg String.length same) (Nat.ne_of_gt (length j))
      | succ k =>
          simp only [candidate, String.append_assoc] at same
          have number : toString (j + 1) = toString (k + 1) := by
            have texts := congrArg String.toList same
            simp only [String.toList_append] at texts
            exact String.toList_inj.mp (List.append_cancel_right texts)
          exact toString_inj number

/-- If what is found is taken, so are all candidates that were tried, by induction on the tries. -/
theorem candidate_mem_of_firstFree_mem {taken : List String} {base : String} {tries k : Nat}
    (found : firstFree taken base tries k ∈ taken)
    : ∀ j, k ≤ j → j ≤ k + tries → candidate base j ∈ taken := by
  induction tries generalizing k with
  | zero =>
      intro j least most
      obtain rfl : j = k := Nat.le_antisymm most least
      exact found
  | succ tries ih =>
      simp only [firstFree] at found
      split at found
      next first =>
          intro j least most
          rcases Nat.eq_or_lt_of_le least with rfl | later
          · exact first
          · exact ih found j later (by omega)
      next free => exact absurd found free

/-- If different numbers give different names, one of the first is not taken: there is one more of
them than there are names.
-/
theorem exists_not_mem_of_inj {α : Type} {name : Nat → α}
    (inj : ∀ {j k : Nat}, name j = name k → j = k) (taken : List α)
    : ∃ k ≤ taken.length, name k ∉ taken := by
  refine Classical.byContradiction fun none => ?_
  have names : (List.range (taken.length + 1)).map name ⊆ taken := by
    intro other member
    obtain ⟨k, bound, rfl⟩ := List.mem_map.mp member
    exact Classical.byContradiction fun free =>
      none ⟨k, Nat.le_of_lt_succ (List.mem_range.mp bound), free⟩
  have distinct : ((List.range (taken.length + 1)).map name).Nodup := by
    rw [List.Nodup, List.pairwise_map]
    exact List.nodup_range.imp fun apart same => apart (inj same)
  have length := distinct.length_le_of_subset names
  rw [List.length_map, List.length_range] at length
  omega

/-- A name that is handed out is not taken. -/
theorem unique_not_mem (base : String) (taken : List String) : unique base taken ∉ taken := by
  intro found
  obtain ⟨k, bound, free⟩ := exists_not_mem_of_inj (@candidate_inj base) taken
  exact free (candidate_mem_of_firstFree_mem found k (Nat.zero_le k) (by omega))

/-- What is found is one of the candidates, and those that were tried before it are taken, by
induction on the tries.
-/
theorem exists_candidate_of_firstFree (taken : List String) (base : String) (tries k : Nat)
    : ∃ j,
        firstFree taken base tries k = candidate base j
        ∧ ∀ i, k ≤ i → i < j → candidate base i ∈ taken := by
  induction tries generalizing k with
  | zero => exact ⟨k, rfl, fun i least less => absurd least (Nat.not_le_of_lt less)⟩
  | succ tries ih =>
      simp only [firstFree]
      split
      next used =>
          obtain ⟨j, found, earlier⟩ := ih (k + 1)
          refine ⟨j, found, fun i least less => ?_⟩
          rcases Nat.eq_or_lt_of_le least with rfl | later
          · exact used
          · exact earlier i later less
      next => exact ⟨k, rfl, fun i least less => absurd least (Nat.not_le_of_lt less)⟩

/-- A character that is neither in the base of a name nor a digit nor a low line is not in the name.
-/
theorem not_mem_unique {base : String} {c : Char} (absent : c ∉ base.toList)
    (other : c.isDigit = false) (low : c ≠ '_') (taken : List String)
    : c ∉ (unique base taken).toList := by
  obtain ⟨j, same, _⟩ := exists_candidate_of_firstFree taken base taken.length 0
  rw [unique, same]
  cases j with
  | zero => exact absent
  | succ j =>
      simp only [candidate, String.toList_append, List.mem_append, not_or]
      exact ⟨⟨not_mem_toString other, by simpa using low⟩, absent⟩

-----------------------------------------------------------------------------------------
-- Plain words
-----------------------------------------------------------------------------------------

/-- A small letter, a digit, a low line or a hyphen. -/
def isPlainChar (c : Char) : Bool := c.isLower || c.isDigit || c == '_' || c == '-'

/-- Plain characters are letters and digits, low lines and hyphens. -/
theorem kinds_of_isPlainChar {c : Char} (plain : isPlainChar c = true)
    : c.isAlphanum = true ∨ c = '_' ∨ c = '-' := by
  simp only [isPlainChar, Bool.or_eq_true, beq_iff_eq] at plain
  rcases plain with ((lower | digit) | low) | hyphen
  · have letter : c.isAlpha = true := Bool.or_eq_true_iff.mpr (.inr lower)
    exact .inl (Bool.or_eq_true_iff.mpr (.inl letter))
  · exact .inl (Bool.or_eq_true_iff.mpr (.inr digit))
  · exact .inr (.inl low)
  · exact .inr (.inr hyphen)

/-- A word of plain characters. -/
structure IsPlain (name : String) : Prop where
  filled : name ≠ ""
  plain : ∀ c ∈ name.toList, isPlainChar c = true

/-- Names derived from a plain word are plain words. -/
theorem IsPlain.unique {base : String} (word : IsPlain base) (taken : List String)
    : IsPlain (Naming.unique base taken) := by
  obtain ⟨k, same, _⟩ := exists_candidate_of_firstFree taken base taken.length 0
  rw [Naming.unique, same]
  cases k with
  | zero => exact word
  | succ k =>
      refine ⟨fun empty => word.filled ?_, fun c member => ?_⟩
      · have parts := congrArg String.toList empty
        simp only [candidate, String.toList_append, String.toList_empty,
          List.append_eq_nil_iff] at parts
        exact String.toList_eq_nil_iff.mp parts.2
      · simp only [candidate, String.toList_append, List.mem_append] at member
        rcases member with (digit | low) | inside
        · simp [isPlainChar, isDigit_of_mem_toString digit]
        · obtain rfl : c = '_' := by simpa using low
          rfl
        · exact word.plain c inside

-----------------------------------------------------------------------------------------
-- Slugs
-----------------------------------------------------------------------------------------

/-- A run is collapsed to characters that were there or the separator, by induction on the text. -/
theorem mem_of_mem_collapse {separator c : Char} {inRun : Bool} {s : List Char}
    (member : c ∈ collapse separator inRun s)
    : c = separator ∨ (c ∈ s ∧ isBlank c = false) := by
  induction s generalizing inRun with
  | nil => cases member
  | cons d s ih =>
      simp only [collapse] at member
      split at member
      next gap =>
          have later (run : Bool) (member : c ∈ collapse separator run s)
              : c = separator ∨ (c ∈ d :: s ∧ isBlank c = false) :=
            (ih member).imp_right fun ⟨inside, shown⟩ => ⟨List.mem_cons_of_mem d inside, shown⟩
          split at member
          · exact later true member
          · rcases List.mem_cons.mp member with rfl | member
            · exact .inl rfl
            · exact later true member
      next kept =>
          simp only [Bool.not_eq_true, Bool.or_eq_false_iff] at kept
          rcases List.mem_cons.mp member with rfl | member
          · exact .inr ⟨List.mem_cons_self, kept.2⟩
          · exact (ih member).imp_right fun ⟨inside, shown⟩ =>
              ⟨List.mem_cons_of_mem d inside, shown⟩

theorem mem_of_mem_trim {c : Char} {s : List Char} (member : c ∈ trim s) : c ∈ s := by
  have kept : c ∈ (trimStart s).reverse.dropWhile isBlank := List.mem_reverse.mp member
  have inside := List.mem_reverse.mp ((List.dropWhile_sublist _).subset kept)
  exact (List.dropWhile_sublist _).subset inside

/-- A slug consists of plain characters and of separators. -/
theorem isPlainChar_of_mem_slugify [Transliteration] {separator c : Char} {text : String}
    (member : c ∈ (slugify separator text).toList)
    : c = separator ∨ isPlainChar c = true := by
  simp only [slugify, String.toList_ofList] at member
  rcases mem_of_mem_collapse member with same | ⟨inside, shown⟩
  · exact .inl same
  obtain ⟨d, kept, rfl⟩ := List.mem_map.mp inside
  have allowed := (List.mem_filter.mp (mem_of_mem_trim kept)).2
  simp only [isSluggable, Bool.or_eq_true, beq_iff_eq] at allowed
  simp only [isPlainChar, Bool.or_eq_true, beq_iff_eq]
  refine .inr ?_
  rcases allowed with ((plain | rfl) | rfl) | blank
  · exact .inl (.inl (toLower_of_isAlphanum plain))
  · exact .inl (.inr rfl)
  · exact .inr rfl
  · rw [toLower_of_isBlank blank, blank] at shown
    cases shown

/-- A slug consists of letters and digits, of hyphens and low lines, and of separators. -/
theorem mem_slugify [Transliteration] {separator c : Char} {text : String}
    (member : c ∈ (slugify separator text).toList)
    : c = separator ∨ c.isAlphanum = true ∨ c = '_' ∨ c = '-' :=
  (isPlainChar_of_mem_slugify member).imp_right kinds_of_isPlainChar

/-- A slug between hyphens is a plain word, if anything is left of the text. -/
theorem isPlain_slugify [Transliteration] {text : String} (filled : slugify '-' text ≠ "")
    : IsPlain (slugify '-' text) where
  filled := filled
  plain := by
    intro c member
    rcases isPlainChar_of_mem_slugify member with rfl | plain
    · rfl
    · exact plain

end Publication.Naming
