import Mathlib.Data.List.Chain
import Publication.Proofs.Naming.Claims
import Publication.Proofs.Text.Lines
import Publication.Text.Transliteration.Table

/-! The words that are slugs. Slugging a text gives one of them, and a word that is one stays as it
is.
-/

namespace Publication.Naming

open Publication.Text

-----------------------------------------------------------------------------------------
-- Runs of separators
-----------------------------------------------------------------------------------------

/-- No separator stands beside another. -/
def Apart (separator : Char) (s : List Char) : Prop :=
  s.IsChain fun c next => c = separator → next ≠ separator

instance (separator : Char) (s : List Char) : Decidable (Apart separator s) :=
  inferInstanceAs (Decidable (s.IsChain fun c next => c = separator → next ≠ separator))

/-- Behind a separator no other one is written, by induction on the text. -/
theorem head?_collapse_ne (separator : Char) (s : List Char)
    : ∀ c ∈ (collapse separator true s).head?, c ≠ separator := by
  induction s with
  | nil => simp [collapse]
  | cons c rest ih =>
      simp only [collapse]
      split
      next => simpa using ih
      next other => simp_all

/-- Of each run one separator is left, by induction on the text. -/
theorem apart_collapse (separator : Char) (inRun : Bool) (s : List Char)
    : Apart separator (collapse separator inRun s) := by
  induction s generalizing inRun with
  | nil => exact List.isChain_nil
  | cons c rest ih =>
      simp only [collapse]
      split
      next =>
          split
          next => exact ih true
          next =>
              refine List.isChain_cons.mpr ⟨fun next behind _ => ?_, ih true⟩
              exact head?_collapse_ne separator rest next behind
      next other =>
          refine List.isChain_cons.mpr ⟨fun next _ same => ?_, ih false⟩
          simp [same] at other

/-- Text without blanks whose separators are apart is left as it is, by induction on it. After a
separator it must not begin with another.
-/
theorem collapse_eq_self {separator : Char} {s : List Char} {inRun : Bool}
    (shown : ∀ c ∈ s, isBlank c = false) (apart : Apart separator s)
    (behind : inRun = true → ∀ c ∈ s.head?, c ≠ separator)
    : collapse separator inRun s = s := by
  induction s generalizing inRun with
  | nil => rfl
  | cons c rest ih =>
      obtain ⟨next, apart⟩ := List.isChain_cons.mp apart
      obtain ⟨first, shown⟩ := List.forall_mem_cons.mp shown
      by_cases same : c = separator
      · have outside : inRun = false := by
          cases inRun with
          | false => rfl
          | true => exact absurd same (behind rfl c rfl)
        have others : collapse separator true rest = rest :=
          ih shown apart fun _ d member => next d member same
        simp [collapse, same, outside, others]
      · have others : collapse separator false rest = rest :=
          ih shown apart fun inRun => Bool.noConfusion inRun
        simp [collapse, same, first, others]

-----------------------------------------------------------------------------------------
-- Plain characters
-----------------------------------------------------------------------------------------

section

variable {c : Char}

/-- The codes of plain characters. -/
theorem toNat_of_isPlainChar (plain : isPlainChar c = true)
    : (97 ≤ c.toNat ∧ c.toNat ≤ 122) ∨ (48 ≤ c.toNat ∧ c.toNat ≤ 57) ∨ c.toNat = 95
      ∨ c.toNat = 45 := by
  simp only [isPlainChar, Bool.or_eq_true, beq_iff_eq] at plain
  rcases plain with ((lower | digit) | rfl) | rfl
  · have bounds := Bool.and_eq_true_iff.mp lower
    exact .inl ⟨of_decide_eq_true bounds.1, of_decide_eq_true bounds.2⟩
  · have bounds := Bool.and_eq_true_iff.mp digit
    exact .inr (.inl ⟨of_decide_eq_true bounds.1, of_decide_eq_true bounds.2⟩)
  · exact .inr (.inr (.inl rfl))
  · exact .inr (.inr (.inr rfl))

theorem isBlank_of_isPlainChar (plain : isPlainChar c = true) : isBlank c = false := by
  have code := toNat_of_isPlainChar plain
  simp only [isBlank, Bool.or_eq_false_iff, Bool.and_eq_false_iff, decide_eq_false_iff_not,
    beq_eq_false_iff_ne]
  omega

theorem toLower_of_isPlainChar (plain : isPlainChar c = true) : c.toLower = c := by
  have code := toNat_of_isPlainChar plain
  exact toLower_of_not_capital (by omega)

theorem isSluggable_of_isPlainChar (plain : isPlainChar c = true) : isSluggable c = true := by
  simp only [isSluggable, Bool.or_eq_true, beq_iff_eq]
  rcases kinds_of_isPlainChar plain with alphanumeric | low | hyphen
  · exact .inl (.inl (.inl alphanumeric))
  · exact .inl (.inl (.inr low))
  · exact .inl (.inr hyphen)

end

/-- Text of plain characters is ASCII, and stands for itself. -/
theorem toAscii_of_isPlainChar [Transliteration] {s : List Char}
    (plain : ∀ c ∈ s, isPlainChar c = true)
    : Transliteration.toAscii s = s := by
  refine Transliteration.toAscii_eq_self s fun c member => ?_
  have code := toNat_of_isPlainChar (plain c member)
  omega

theorem trimmed_of_isPlainChar {s : List Char} (plain : ∀ c ∈ s, isPlainChar c = true)
    : Trimmed s where
  start := fun c first => isBlank_of_isPlainChar (plain c (List.mem_of_mem_head? first))
  last := fun c last => isBlank_of_isPlainChar (plain c (List.mem_of_mem_getLast? last))

-----------------------------------------------------------------------------------------
-- The range of slugging
-----------------------------------------------------------------------------------------

/-- A word of small letters, digits, low lines and hyphens in which no separator stands beside
another. It may be empty.
-/
structure IsSlug (separator : Char) (word : String) : Prop where
  plain : ∀ c ∈ word.toList, isPlainChar c = true
  apart : Apart separator word.toList

instance (separator : Char) (word : String) : Decidable (IsSlug separator word) :=
  decidable_of_iff (word.toList.all isPlainChar = true ∧ Apart separator word.toList)
    ⟨fun ⟨plain, apart⟩ => ⟨List.all_eq_true.mp plain, apart⟩,
      fun slug => ⟨List.all_eq_true.mpr slug.plain, slug.apart⟩⟩

section

variable [Transliteration] {separator : Char}

theorem isSlug_slugify (plain : isPlainChar separator = true) (text : String)
    : IsSlug separator (slugify separator text) where
  plain := by
    intro c member
    rcases isPlainChar_of_mem_slugify member with rfl | other
    · exact plain
    · exact other
  apart := by
    rw [slugify, String.toList_ofList]
    exact apart_collapse _ _ _

/-- Each step of slugging leaves a slug as it is. -/
theorem slugify_eq_self {word : String} (slug : IsSlug separator word)
    : slugify separator word = word := by
  have kept : word.toList.filter isSluggable = word.toList :=
    List.filter_eq_self.mpr fun c member => isSluggable_of_isPlainChar (slug.plain c member)
  have lowered : word.toList.map Char.toLower = word.toList := by
    rw [List.map_congr_left fun c member => toLower_of_isPlainChar (slug.plain c member),
      List.map_id']
  have collapsed : collapse separator false word.toList = word.toList :=
    collapse_eq_self (fun c member => isBlank_of_isPlainChar (slug.plain c member)) slug.apart
      fun inRun => Bool.noConfusion inRun
  rw [slugify, toAscii_of_isPlainChar slug.plain, kept, (trimmed_of_isPlainChar slug.plain).trim_eq,
    lowered, collapsed, String.ofList_toList]

end

/-- Slugging gives a slug for each text and leaves slugs as they are, however text is spelled in
ASCII. So slugging twice is the same as once, and what slugging can give is exactly the slugs.
-/
theorem slugify_range [Transliteration] {separator : Char}
    (either : separator = '-' ∨ separator = '_')
    : (∀ text, IsSlug separator (slugify separator text))
      ∧ (∀ word, IsSlug separator word → slugify separator word = word)
      ∧ (∀ text, slugify separator (slugify separator text) = slugify separator text)
      ∧ ∀ word, (∃ text, slugify separator text = word) ↔ IsSlug separator word := by
  have plain : isPlainChar separator = true := by
    rcases either with rfl | rfl
    · rfl
    · rfl
  refine ⟨isSlug_slugify plain, fun _ => slugify_eq_self, ?_, fun word => ⟨?_, ?_⟩⟩
  · exact fun text => slugify_eq_self (isSlug_slugify plain text)
  · rintro ⟨text, rfl⟩
    exact isSlug_slugify plain text
  · exact fun slug => ⟨word, slugify_eq_self slug⟩

section

open scoped Publication.StandIns

/-- A heading between hyphens, and two hyphens beside each other. -/
theorem slugify_range_hyphens
    : slugify '-' "  What's new - in snake_case?" = "whats-new-in-snake_case"
      ∧ slugify '-' "whats-new-in-snake_case" = "whats-new-in-snake_case"
      ∧ ¬ ∃ text, slugify '-' text = "a--b" := by
  obtain ⟨_, same, _, range⟩ := @slugify_range _ '-' (.inl rfl)
  refine ⟨by decide +kernel, same _ (by decide +kernel), fun found => ?_⟩
  exact absurd ((range "a--b").mp found) (by decide +kernel)

end

end Publication.Naming
