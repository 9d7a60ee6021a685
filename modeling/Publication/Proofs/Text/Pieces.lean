import Publication.Proofs.Text.Lines

/-! Texts that are cut at a separator. A text is its pieces with the separators between them, and a
list that is written with commas is its items, however many blanks and stray commas stand around
them.
-/

namespace Publication.Text

-----------------------------------------------------------------------------------------
-- Pieces
-----------------------------------------------------------------------------------------

/-- A text is cut at a separator into the pieces before and behind it, by induction on the part
before it.
-/
theorem splitFrom_append (separator : Char) (piece s t : List Char)
    : splitFrom separator piece (s ++ separator :: t)
      = splitFrom separator piece s ++ splitOn separator t := by
  induction s generalizing piece with
  | nil => simp [splitFrom, splitOn]
  | cons c s ih =>
      simp only [List.cons_append, splitFrom]
      split
      · rw [ih, List.cons_append]
      · exact ih (c :: piece)

theorem splitOn_append (separator : Char) (s t : List Char)
    : splitOn separator (s ++ separator :: t) = splitOn separator s ++ splitOn separator t :=
  splitFrom_append separator [] s t

/-- A text without separators is one piece, by induction on it. -/
theorem splitFrom_of_not_mem {separator : Char} {s : List Char} (free : separator ∉ s)
    (piece : List Char)
    : splitFrom separator piece s = [piece.reverse ++ s] := by
  induction s generalizing piece with
  | nil => simp [splitFrom]
  | cons c s ih =>
      simp only [List.mem_cons, not_or] at free
      simp [splitFrom, Ne.symm free.1, ih free.2]

theorem splitOn_of_not_mem {separator : Char} {s : List Char} (free : separator ∉ s)
    : splitOn separator s = [s] :=
  splitFrom_of_not_mem free []

/-- No piece holds the separator, by induction on the text. -/
theorem not_mem_of_mem_splitFrom {separator : Char} {begun s piece : List Char}
    (free : separator ∉ begun) (member : piece ∈ splitFrom separator begun s)
    : separator ∉ piece := by
  induction s generalizing begun with
  | nil =>
      obtain rfl := List.mem_singleton.mp member
      simpa using free
  | cons c s ih =>
      simp only [splitFrom] at member
      split at member
      · rcases List.mem_cons.mp member with rfl | member
        · simpa using free
        · exact ih List.not_mem_nil member
      next other =>
          refine ih ?_ member
          simp [Ne.symm other, free]

section

variable {separator : Char}

theorem intercalate_append {front back : List (List Char)} (first : front ≠ []) (next : back ≠ [])
    : List.intercalate [separator] (front ++ back)
      = List.intercalate [separator] front ++ separator :: List.intercalate [separator] back := by
  induction front with
  | nil => exact absurd rfl first
  | cons piece front ih =>
      cases front with
      | nil =>
          obtain ⟨other, back, rfl⟩ := List.exists_cons_of_ne_nil next
          simp
      | cons second front => simpa using ih (List.cons_ne_nil second front)

theorem mem_intercalate {piece : List Char} {pieces : List (List Char)} {c : Char}
    (among : piece ∈ pieces) (member : c ∈ piece)
    : c ∈ List.intercalate [separator] pieces := by
  induction pieces with
  | nil => cases among
  | cons first pieces ih =>
      cases pieces with
      | nil =>
          obtain rfl := List.mem_singleton.mp among
          simpa using member
      | cons second pieces =>
          rcases List.mem_cons.mp among with rfl | among
          · simp [member]
          · simp [ih among]

/-- A text with a separator behind it is its pieces with one behind each. -/
theorem intercalate_append_separator {pieces : List (List Char)} (filled : pieces ≠ [])
    : List.intercalate [separator] pieces ++ [separator]
      = pieces.flatMap (· ++ [separator]) := by
  induction pieces with
  | nil => exact absurd rfl filled
  | cons piece rest ih =>
      cases rest with
      | nil => simp
      | cons next rest =>
          rw [List.flatMap_cons, ← ih (List.cons_ne_nil next rest), List.intercalate_cons_cons]
          simp

theorem splitFrom_ne_nil (separator : Char) (piece s : List Char)
    : splitFrom separator piece s ≠ [] := by
  induction s generalizing piece with
  | nil => exact List.cons_ne_nil _ _
  | cons c s ih =>
      simp only [splitFrom]
      split
      · exact List.cons_ne_nil _ _
      · exact ih (c :: piece)

/-- A text is its pieces with the separators between them, by induction on the text. -/
theorem intercalate_splitFrom (piece s : List Char)
    : List.intercalate [separator] (splitFrom separator piece s) = piece.reverse ++ s := by
  induction s generalizing piece with
  | nil => simp [splitFrom]
  | cons c s ih =>
      simp only [splitFrom]
      split
      next same =>
          subst same
          have rest := ih []
          obtain ⟨first, others, pieces⟩ : ∃ first others, splitFrom c [] s = first :: others :=
            List.exists_cons_of_ne_nil (splitFrom_ne_nil c [] s)
          rw [pieces] at rest ⊢
          rw [List.intercalate_cons_cons, rest]
          simp
      next => simp [ih]

/-- Pieces without separators are cut apart again where they were joined, by induction on them. -/
theorem splitOn_intercalate {pieces : List (List Char)} (filled : pieces ≠ [])
    (free : ∀ piece ∈ pieces, separator ∉ piece)
    : splitOn separator (List.intercalate [separator] pieces) = pieces := by
  induction pieces with
  | nil => exact absurd rfl filled
  | cons piece rest ih =>
      obtain ⟨own, others⟩ := List.forall_mem_cons.mp free
      cases rest with
      | nil => simp [splitOn_of_not_mem own]
      | cons next rest =>
          rw [List.intercalate_cons_cons, List.append_assoc, List.singleton_append,
            splitOn_append, splitOn_of_not_mem own, ih (List.cons_ne_nil next rest) others]
          rfl

end

-----------------------------------------------------------------------------------------
-- Items
-----------------------------------------------------------------------------------------

/-- What stands between the commas of a text, trimmed, without what is empty then. -/
def items (s : List Char) : List (List Char) :=
  ((splitOn ',' s).map trim).filter fun item => !item.isEmpty

theorem items_append_comma (s t : List Char) : items (s ++ ',' :: t) = items s ++ items t := by
  rw [items, splitOn_append, List.map_append, List.filter_append]
  rfl

theorem items_of_not_mem {s : List Char} (plain : ',' ∉ s)
    : items s = if allBlank s then [] else [trim s] := by
  rw [items, splitOn_of_not_mem plain]
  cases blank : allBlank s with
  | true => simp [trim_eq_nil_iff.mpr blank]
  | false =>
      have filled : trim s ≠ [] := fun nothing => by
        rw [trim_eq_nil_iff.mp nothing] at blank
        cases blank
      simp [filled]

theorem items_of_allBlank {s : List Char} (blank : allBlank s = true) : items s = [] := by
  rw [items_of_not_mem (not_mem_of_allBlank blank rfl), if_pos blank]

/-- A text has no comma, or a first one with a shorter text behind it. -/
@[elab_as_elim]
theorem comma_induction {motive : List Char → Prop} (plain : ∀ s, ',' ∉ s → motive s)
    (comma : ∀ s t, ',' ∉ s → motive t → motive (s ++ ',' :: t)) (s : List Char)
    : motive s := by
  by_cases member : ',' ∈ s
  · obtain ⟨front, back, whole, first⟩ := List.eq_append_cons_of_mem member
    rw [whole]
    exact comma front back first (comma_induction plain comma back)
  · exact plain s member
termination_by s.length
decreasing_by
  rw [whole, List.length_append, List.length_cons]
  omega

/-- Blanks around a text are not part of its items: those before it stand before its first comma,
and those behind it behind its last.
-/
theorem items_blanks {front behind : List Char} (before : allBlank front = true)
    (after : allBlank behind = true) (s : List Char)
    : items (front ++ s ++ behind) = items s := by
  have alone {front behind s : List Char} (before : allBlank front = true)
      (after : allBlank behind = true) (plain : ',' ∉ s)
      : items (front ++ s ++ behind) = items s := by
    have same : allBlank (front ++ s ++ behind) = allBlank s := by
      simp only [allBlank] at before after
      simp only [allBlank, List.all_append, before, after, Bool.true_and, Bool.and_true]
    have shown : isBlank ',' = false := rfl
    have free : ',' ∉ front ++ s ++ behind := by
      simp [plain, not_mem_of_allBlank before shown, not_mem_of_allBlank after shown]
    rw [items_of_not_mem free, items_of_not_mem plain, same, List.append_assoc,
      trim_append before, trim_append_of_allBlank s after]
  induction s using comma_induction generalizing front with
  | plain s plain => exact alone before after plain
  | comma s t plain ih =>
      have nothing : allBlank [] = true := rfl
      have first : items (front ++ s) = items s := by
        have cut := alone before nothing plain
        rwa [List.append_nil] at cut
      have rest : items (t ++ behind) = items t := ih nothing
      have cut : front ++ (s ++ ',' :: t) ++ behind = (front ++ s) ++ ',' :: (t ++ behind) := by
        simp
      rw [cut, items_append_comma, items_append_comma, first, rest]

theorem items_trim (s : List Char) : items (trim s) = items s := by
  obtain ⟨front, behind, whole, before, after⟩ := exists_eq_trim s
  have kept := items_blanks before after (trim s)
  rw [← whole] at kept
  exact kept.symm

end Publication.Text
