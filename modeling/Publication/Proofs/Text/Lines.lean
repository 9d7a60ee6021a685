import Publication.Text.Lines

/-! Blanks at the ends of a text, its words, its lines and their breaks. A text is its lines one
after another, and where one line ends the lines behind it can be told apart from those before it.
-/

namespace Publication.Text

-----------------------------------------------------------------------------------------
-- What a text begins and ends with
-----------------------------------------------------------------------------------------

theorem strip?_eq_some_iff {start s rest : List Char}
    : strip? start s = some rest ↔ s = start ++ rest := by
  induction start generalizing s with
  | nil => simp [strip?]
  | cons a start ih =>
      cases s with
      | nil => simp [strip?]
      | cons c s =>
          by_cases same : a = c
          · simp [strip?, same, ih]
          · simp [strip?, same, Ne.symm same]

theorem stripEnd?_eq_some_iff {ending s front : List Char}
    : stripEnd? ending s = some front ↔ s = front ++ ending := by
  constructor
  · intro stripped
    obtain ⟨reversed, found, rfl⟩ := Option.map_eq_some_iff.mp stripped
    have whole := congrArg List.reverse (strip?_eq_some_iff.mp found)
    simpa using whole
  · rintro rfl
    exact Option.map_eq_some_iff.mpr
      ⟨front.reverse, strip?_eq_some_iff.mpr List.reverse_append, List.reverse_reverse front⟩

theorem trimEnd_append_of_allBlank (s : List Char) {blanks : List Char}
    (blank : allBlank blanks = true)
    : trimEnd (s ++ blanks) = trimEnd s := by
  have passed : ∀ c ∈ blanks.reverse, isBlank c = true := by
    intro c member
    exact List.all_eq_true.mp blank c (List.mem_reverse.mp member)
  rw [trimEnd, List.reverse_append, List.dropWhile_append_of_pos passed, trimEnd]

theorem trimEnd_of_getLast? {s : List Char} {c : Char} (last : s.getLast? = some c)
    (shown : isBlank c = false)
    : trimEnd s = s := by
  obtain ⟨front, rfl⟩ := List.getLast?_eq_some_iff.mp last
  simp [trimEnd, shown]

/-- What is trimmed off the end of a text is blank. -/
theorem exists_trimEnd_append (s : List Char)
    : ∃ blanks, s = trimEnd s ++ blanks ∧ allBlank blanks = true := by
  refine ⟨(s.reverse.takeWhile isBlank).reverse, ?_, ?_⟩
  · rw [trimEnd, ← List.reverse_append, List.takeWhile_append_dropWhile, List.reverse_reverse]
  · simp only [allBlank, List.all_reverse]
    exact List.all_takeWhile

/-- What is not blank is not trimmed off. -/
theorem mem_trimEnd {s : List Char} {c : Char} (member : c ∈ s) (shown : isBlank c = false)
    : c ∈ trimEnd s := by
  obtain ⟨blanks, whole, blank⟩ := exists_trimEnd_append s
  rw [whole] at member
  refine (List.mem_append.mp member).resolve_right fun behind => ?_
  rw [List.all_eq_true.mp blank c behind] at shown
  cases shown

theorem trim_append {blanks : List Char} (blank : allBlank blanks = true) (s : List Char)
    : trim (blanks ++ s) = trim s := by
  rw [trim, trimStart, List.dropWhile_append_of_pos (List.all_eq_true.mp blank), trim, trimStart]

theorem not_mem_of_allBlank {blanks : List Char} (blank : allBlank blanks = true) {c : Char}
    (shown : isBlank c = false)
    : c ∉ blanks := by
  intro member
  rw [List.all_eq_true.mp blank c member] at shown
  cases shown

theorem allBlank_replicate (n : Nat) : allBlank (List.replicate n ' ') = true := by
  simp [allBlank, isBlank]

/-- Text with no blank at either end. -/
structure Trimmed (s : List Char) : Prop where
  start : ∀ c ∈ s.head?, isBlank c = false
  last : ∀ c ∈ s.getLast?, isBlank c = false

/-- Where no blank is at either end, nothing is trimmed off. -/
theorem Trimmed.trim_eq {s : List Char} (trimmed : Trimmed s) : trim s = s := by
  cases s with
  | nil => rfl
  | cons c s =>
      have begins : isBlank c = false := trimmed.start c rfl
      have ends := List.getLast?_eq_some_getLast (List.cons_ne_nil c s)
      rw [trim, trimStart, List.dropWhile_cons_of_neg (by simp [begins])]
      exact trimEnd_of_getLast? ends (trimmed.last _ ends)

theorem isBlank_of_mem_head?_dropWhile (s : List Char)
    : ∀ c ∈ (s.dropWhile isBlank).head?, isBlank c = false := by
  intro c member
  have head := List.head?_dropWhile_not isBlank s
  rw [Option.mem_def.mp member] at head
  exact head

theorem trimmed_trim (s : List Char) : Trimmed (trim s) where
  start := by
    intro c member
    obtain ⟨blanks, whole, _⟩ := exists_trimEnd_append (trimStart s)
    refine isBlank_of_mem_head?_dropWhile s c ?_
    rw [← trimStart, whole, ← trim, List.head?_append, Option.mem_def.mp member]
    rfl
  last := by
    intro c member
    rw [trim, trimEnd, List.getLast?_reverse] at member
    exact isBlank_of_mem_head?_dropWhile _ c member

/-- A text is what is left of it when it is trimmed, between blanks. -/
theorem exists_eq_trim (s : List Char)
    : ∃ front behind,
        s = front ++ trim s ++ behind ∧ allBlank front = true ∧ allBlank behind = true := by
  obtain ⟨behind, whole, blank⟩ := exists_trimEnd_append (trimStart s)
  refine ⟨s.takeWhile isBlank, behind, ?_, List.all_takeWhile, blank⟩
  rw [List.append_assoc, trim, ← whole, trimStart, List.takeWhile_append_dropWhile]

/-- Nothing is left of a text exactly if it is blank. -/
theorem trim_eq_nil_iff {s : List Char} : trim s = [] ↔ allBlank s = true := by
  obtain ⟨front, behind, whole, blank, blankToo⟩ := exists_eq_trim s
  constructor
  · intro nothing
    rw [whole, nothing, List.append_nil, allBlank, List.all_append, Bool.and_eq_true]
    exact ⟨blank, blankToo⟩
  · intro all
    refine List.eq_nil_iff_forall_not_mem.mpr fun c member => ?_
    obtain ⟨first, begun⟩ : ∃ first, (trim s).head? = some first :=
      ⟨_, List.head?_eq_some_head (List.ne_nil_of_mem member)⟩
    have shown := (trimmed_trim s).start first begun
    have inside : first ∈ s := by
      rw [whole]
      simp [List.mem_of_mem_head? (Option.mem_def.mpr begun)]
    rw [List.all_eq_true.mp all first inside] at shown
    cases shown

theorem allBlank_trim (s : List Char) : allBlank (trim s) = allBlank s := by
  rw [Bool.eq_iff_iff, ← trim_eq_nil_iff, ← trim_eq_nil_iff, (trimmed_trim s).trim_eq]

/-- Blanks behind a text are trimmed off, also where nothing is left of it. -/
theorem trim_append_of_allBlank (s : List Char) {blanks : List Char}
    (blank : allBlank blanks = true)
    : trim (s ++ blanks) = trim s := by
  by_cases filled : allBlank s = true
  · have whole : allBlank (s ++ blanks) = true := by
      rw [allBlank, List.all_append, Bool.and_eq_true]
      exact ⟨filled, blank⟩
    rw [trim_eq_nil_iff.mpr filled, trim_eq_nil_iff.mpr whole]
  · have begun : (trimStart s).isEmpty = false := by
      refine Bool.eq_false_iff.mpr fun nothing => filled (trim_eq_nil_iff.mp ?_)
      rw [trim, List.isEmpty_iff.mp nothing]
      rfl
    rw [trim, trimStart, List.dropWhile_append, ← trimStart, if_neg (by simp [begun]),
      trimEnd_append_of_allBlank _ blank, trim]

theorem isEmpty_trimmed (s : String) : (trimmed s).isEmpty = allBlank s.toList := by
  rw [Bool.eq_iff_iff, ← trim_eq_nil_iff, String.isEmpty_iff, trimmed, ← String.toList_inj,
    String.toList_ofList]
  rfl

-----------------------------------------------------------------------------------------
-- Runs of one character
-----------------------------------------------------------------------------------------

/-- A text is a run of one character and what follows it. -/
theorem exists_eq_replicate_append (c : Char) (s : List Char)
    : ∃ n t, s = List.replicate n c ++ t ∧ t.head? ≠ some c := by
  refine ⟨(s.takeWhile (· = c)).length, s.dropWhile (· = c), ?_, ?_⟩
  · have run : s.takeWhile (· = c) = List.replicate (s.takeWhile (· = c)).length c := by
      refine List.eq_replicate_of_mem fun d member => ?_
      exact of_decide_eq_true (List.all_eq_true.mp List.all_takeWhile d member)
    rw [← run, List.takeWhile_append_dropWhile]
  · intro again
    have stopped := List.head?_dropWhile_not (· = c) s
    rw [again] at stopped
    simp at stopped

theorem takeWhile_replicate_append (n : Nat) {c : Char} {t : List Char} (ends : t.head? ≠ some c)
    : (List.replicate n c ++ t).takeWhile (· = c) = List.replicate n c
      ∧ (List.replicate n c ++ t).dropWhile (· = c) = t := by
  have passed : ∀ d ∈ List.replicate n c, decide (d = c) = true := by
    intro d member
    exact decide_eq_true (List.eq_of_mem_replicate member)
  rw [List.takeWhile_append_of_pos passed, List.dropWhile_append_of_pos passed]
  cases t with
  | nil => simp
  | cons d t =>
      have other : d ≠ c := fun same => ends (by rw [same]; rfl)
      simp [other]

-----------------------------------------------------------------------------------------
-- Words
-----------------------------------------------------------------------------------------

/-- Text that is not empty, and has no blank in it. -/
def IsWord (s : List Char) : Prop := s ≠ [] ∧ ∀ c ∈ s, isBlank c = false

theorem IsWord.trimmed {s : List Char} (isWord : IsWord s) : Trimmed s where
  start := fun c member => isWord.2 c (List.mem_of_mem_head? member)
  last := fun c member => isWord.2 c (List.mem_of_mem_getLast? member)

/-- A text is cut into words, by induction on what is still unread. -/
theorem isWord_of_mem_wordsFrom {begun s word : List Char} (solid : ∀ c ∈ begun, isBlank c = false)
    (member : word ∈ wordsFrom begun s)
    : IsWord word := by
  have ended {begun : List Char} (solid : ∀ c ∈ begun, isBlank c = false)
      (filled : ¬ begun.isEmpty = true)
      : IsWord begun.reverse :=
    ⟨by simpa using filled, fun c inside => solid c (List.mem_reverse.mp inside)⟩
  have none_begun : ∀ c ∈ ([] : List Char), isBlank c = false := List.forall_mem_nil _
  induction s generalizing begun with
  | nil =>
      simp only [wordsFrom] at member
      split at member
      · cases member
      next filled => exact List.mem_singleton.mp member ▸ ended solid filled
  | cons c s ih =>
      simp only [wordsFrom] at member
      split at member
      · split at member
        · exact ih none_begun member
        next filled =>
            rcases List.mem_cons.mp member with rfl | member
            · exact ended solid filled
            · exact ih none_begun member
      next shown =>
          exact ih (List.forall_mem_cons.mpr ⟨Bool.eq_false_iff.mpr shown, solid⟩) member

theorem isWord_of_mem_words {s word : List Char} (member : word ∈ words s) : IsWord word :=
  isWord_of_mem_wordsFrom (List.forall_mem_nil _) member

/-- Words with a space between them are trimmed, and have no other blank in them. -/
theorem trimmed_intercalate {found : List (List Char)} (each : ∀ word ∈ found, IsWord word)
    : Trimmed (List.intercalate [' '] found)
      ∧ ∀ c ∈ List.intercalate [' '] found, c = ' ' ∨ isBlank c = false := by
  induction found with
  | nil => exact ⟨⟨nofun, nofun⟩, nofun⟩
  | cons word rest ih =>
      obtain ⟨first, others⟩ := List.forall_mem_cons.mp each
      obtain ⟨behind, plain⟩ := ih others
      cases rest with
      | nil =>
          rw [List.intercalate_singleton]
          exact ⟨first.trimmed, fun c member => .inr (first.2 c member)⟩
      | cons next rest =>
          have filled : List.intercalate [' '] (next :: rest) ≠ [] := by
            have own := (List.forall_mem_cons.mp others).1.1
            cases rest with
            | nil => rwa [List.intercalate_singleton]
            | cons => simp [List.intercalate_cons_cons]
          rw [List.intercalate_cons_cons]
          refine ⟨⟨fun c member => ?_, fun c member => ?_⟩, fun c member => ?_⟩
          · obtain ⟨d, word, rfl⟩ := List.exists_cons_of_ne_nil first.1
            exact first.trimmed.start c member
          · rw [List.getLast?_append, List.getLast?_eq_some_getLast filled] at member
            exact behind.last c (List.getLast?_eq_some_getLast filled ▸ member)
          · rcases List.mem_append.mp member with front | back
            · rcases List.mem_append.mp front with inside | space
              · exact .inr (first.2 c inside)
              · exact .inl (List.mem_singleton.mp space)
            · exact plain c back

-----------------------------------------------------------------------------------------
-- Lines
-----------------------------------------------------------------------------------------

/-- The lines of a text concatenate to it, by induction on what is still unread. -/
theorem flatten_linesFrom (begun s : List Char)
    : (linesFrom begun s).flatten = begun.reverse ++ s := by
  induction s generalizing begun with
  | nil =>
      cases begun with
      | nil => rfl
      | cons c begun => simp [linesFrom]
  | cons c s ih =>
      simp only [linesFrom]
      split <;> simp [ih]

theorem flatten_lines (s : List Char) : (lines s).flatten = s := flatten_linesFrom [] s

theorem mem_of_mem_lines {s line : List Char} {c : Char} (member : line ∈ lines s)
    (inside : c ∈ line)
    : c ∈ s := by
  rw [← flatten_lines s]
  exact List.mem_flatten.mpr ⟨line, member, inside⟩

/-- Behind a line feed the lines begin anew, by induction on the text before it. -/
theorem linesFrom_append (begun s t : List Char)
    : linesFrom begun (s ++ '\n' :: t) = linesFrom begun (s ++ ['\n']) ++ lines t := by
  induction s generalizing begun with
  | nil => simp [linesFrom, lines]
  | cons c s ih =>
      simp only [List.cons_append, linesFrom]
      split
      · rw [ih, List.cons_append]
      · exact ih (c :: begun)

theorem lines_append {s : List Char} (ended : s.getLast? = some '\n') (t : List Char)
    : lines (s ++ t) = lines s ++ lines t := by
  obtain ⟨front, rfl⟩ := List.getLast?_eq_some_iff.mp ended
  have cut := linesFrom_append [] front t
  rwa [List.append_cons] at cut

/-- Text that is begun goes on to the first line feed, by induction on what follows. -/
theorem exists_linesFrom_eq {begun : List Char} (filled : begun ≠ []) (t : List Char)
    : ∃ front back,
        t = front ++ back ∧ linesFrom begun t = (begun.reverse ++ front) :: lines back := by
  induction t generalizing begun with
  | nil => exact ⟨[], [], rfl, by simp [linesFrom, lines, filled]⟩
  | cons c t ih =>
      by_cases feed : c = '\n'
      · subst feed
        exact ⟨['\n'], t, rfl, by simp [linesFrom, lines]⟩
      · obtain ⟨front, back, whole, cut⟩ := ih (List.cons_ne_nil c begun)
        refine ⟨c :: front, back, by rw [whole, List.cons_append], ?_⟩
        simp [linesFrom, feed, cut]

theorem linesFrom_append_of_not_mem {s : List Char} (plain : '\n' ∉ s) (begun t : List Char)
    : linesFrom begun (s ++ t) = linesFrom (s.reverse ++ begun) t := by
  induction s generalizing begun with
  | nil => rfl
  | cons c s ih =>
      simp only [List.mem_cons, not_or] at plain
      simp [linesFrom, Ne.symm plain.1, ih plain.2]

/-- A line is cut off at its line feed. -/
theorem lines_append_feed {line : List Char} (plain : '\n' ∉ line) (rest : List Char)
    : lines (line ++ ['\n'] ++ rest) = (line ++ ['\n']) :: lines rest := by
  rw [List.append_assoc, lines, linesFrom_append_of_not_mem plain]
  simp [linesFrom, lines]

/-- The first line of a text goes on to the first line feed. -/
theorem exists_lines_append_eq {s : List Char} (filled : s ≠ []) (plain : '\n' ∉ s) (t : List Char)
    : ∃ front back, t = front ++ back ∧ lines (s ++ t) = (s ++ front) :: lines back := by
  have begun : s.reverse ≠ [] := by simpa using filled
  obtain ⟨front, back, whole, cut⟩ := exists_linesFrom_eq begun t
  refine ⟨front, back, whole, ?_⟩
  have passed := linesFrom_append_of_not_mem plain [] t
  rw [List.append_nil, cut, List.reverse_reverse] at passed
  exact passed

/-- Lines as they are cut from a text: each ends in the only line feed in it, but the last one may
lack it.
-/
def AreLines : List (List Char) → Prop
  | [] => True
  | [line] => line ≠ [] ∧ '\n' ∉ line.dropLast
  | line :: rest => (∃ text, '\n' ∉ text ∧ line = text ++ ['\n']) ∧ AreLines rest

theorem areLines_cons {text : List Char} (plain : '\n' ∉ text) {rest : List (List Char)}
    (others : AreLines rest)
    : AreLines ((text ++ ['\n']) :: rest) := by
  cases rest with
  | nil => exact ⟨by simp, by simpa using plain⟩
  | cons next rest => exact ⟨⟨text, plain, rfl⟩, others⟩

theorem AreLines.tail {line : List Char} {rest : List (List Char)}
    (whole : AreLines (line :: rest))
    : AreLines rest := by
  cases rest with
  | nil => trivial
  | cons next rest => exact whole.2

/-- A line before another one ends in a line feed. -/
theorem AreLines.exists_text {line next : List Char} {rest : List (List Char)}
    (whole : AreLines (line :: next :: rest))
    : ∃ text, '\n' ∉ text ∧ line = text ++ ['\n'] :=
  whole.1

theorem areLines_linesFrom {begun : List Char} (plain : '\n' ∉ begun) (s : List Char)
    : AreLines (linesFrom begun s) := by
  induction s generalizing begun with
  | nil =>
      cases begun with
      | nil => trivial
      | cons c begun =>
          refine ⟨by simp, fun member => plain ?_⟩
          exact List.mem_reverse.mp (List.dropLast_subset _ member)
  | cons c s ih =>
      simp only [linesFrom]
      split
      next feed =>
          subst feed
          rw [List.reverse_cons]
          exact areLines_cons (by simpa using plain) (ih List.not_mem_nil)
      next other => exact ih (by simp [plain, Ne.symm other])

theorem areLines_lines (s : List Char) : AreLines (lines s) := areLines_linesFrom List.not_mem_nil s

theorem AreLines.drop {front back : List (List Char)} (whole : AreLines (front ++ back))
    : AreLines back := by
  induction front with
  | nil => exact whole
  | cons line front ih => exact ih whole.tail

theorem AreLines.take {front back : List (List Char)} (whole : AreLines (front ++ back))
    : AreLines front := by
  induction front with
  | nil => trivial
  | cons line front ih =>
      cases front with
      | nil =>
          cases back with
          | nil => exact whole
          | cons next back =>
              obtain ⟨text, plain, rfl⟩ := AreLines.exists_text whole
              exact areLines_cons plain trivial
      | cons next front => exact ⟨whole.1, ih whole.tail⟩

/-- Lines that are put together are cut apart again, by induction on them. -/
theorem AreLines.lines_flatten {found : List (List Char)} (cut : AreLines found)
    : lines found.flatten = found := by
  induction found with
  | nil => rfl
  | cons line rest ih =>
      cases rest with
      | nil =>
          obtain ⟨filled, plain⟩ := cut
          obtain ⟨text, c, rfl⟩ := List.eq_nil_or_concat line |>.resolve_left filled
          rw [List.concat_eq_append] at plain ⊢
          have apart := linesFrom_append_of_not_mem (by simpa using plain) [] [c]
          simp only [List.flatten_cons, List.flatten_nil, List.append_nil] at apart ⊢
          rw [lines, apart]
          by_cases feed : c = '\n' <;> simp [linesFrom, feed]
      | cons next rest =>
          obtain ⟨text, plain, rfl⟩ := cut.exists_text
          rw [List.flatten_cons, lines_append_feed plain, ih cut.tail]

-----------------------------------------------------------------------------------------
-- Breaks at the ends of lines
-----------------------------------------------------------------------------------------

theorem stripEnd?_eq_none {c : Char} {s : List Char} (other : s.getLast? ≠ some c)
    : stripEnd? [c] s = none := by
  refine Option.eq_none_iff_forall_ne_some.mpr fun front stripped => other ?_
  rw [stripEnd?_eq_some_iff.mp stripped, List.getLast?_concat]

theorem getD_stripEnd?_append {c : Char} {s : List Char} (other : s.getLast? ≠ some c)
    (t : List Char)
    : (stripEnd? [c] (s ++ t)).getD (s ++ t) = s ++ (stripEnd? [c] t).getD t := by
  rcases List.eq_nil_or_concat t with rfl | ⟨t, d, rfl⟩
  · rw [List.append_nil, stripEnd?_eq_none other, stripEnd?_eq_none (by simp)]
    simp
  · rw [List.concat_eq_append, ← List.append_assoc]
    by_cases same : d = c
    · subst same
      rw [stripEnd?_eq_some_iff.mpr rfl, stripEnd?_eq_some_iff.mpr rfl]
      rfl
    · have last (u : List Char) : (u ++ [d]).getLast? ≠ some c := by simpa using same
      rw [stripEnd?_eq_none (last _), stripEnd?_eq_none (last _)]
      simp

theorem withoutBreak_append_of_ne {s : List Char} (feed : s.getLast? ≠ some '\n')
    (returned : s.getLast? ≠ some '\r') (t : List Char)
    : withoutBreak (s ++ t) = s ++ withoutBreak t := by
  simp only [withoutBreak, withoutFeed]
  rw [getD_stripEnd?_append feed, getD_stripEnd?_append returned]

/-- The break at the end of a line is none of a character that does not break lines. -/
theorem withoutBreak_append {s : List Char} {c : Char} (last : s.getLast? = some c)
    (shown : isBlank c = false) (t : List Char)
    : withoutBreak (s ++ t) = s ++ withoutBreak t := by
  have other {d : Char} (blank : isBlank d = true) : s.getLast? ≠ some d := by
    rw [last]
    rintro same
    cases same
    exact absurd blank (Bool.eq_false_iff.mp shown)
  exact withoutBreak_append_of_ne (other rfl) (other rfl) t

/-- A line is what it is without its break, and the break. -/
theorem exists_withoutBreak_append (line : List Char)
    : ∃ ending, line = withoutBreak line ++ ending ∧ allBlank ending = true := by
  have strip (c : Char) (blank : isBlank c = true) (s : List Char)
      : ∃ ending, s = (stripEnd? [c] s).getD s ++ ending ∧ allBlank ending = true := by
    cases stripped : stripEnd? [c] s with
    | none => exact ⟨[], by simp, rfl⟩
    | some front =>
        refine ⟨[c], stripEnd?_eq_some_iff.mp stripped, ?_⟩
        simpa [allBlank] using blank
  obtain ⟨feed, whole, blankFeed⟩ := strip '\n' rfl line
  obtain ⟨ending, bare, blankEnding⟩ := strip '\r' rfl (withoutFeed line)
  refine ⟨ending ++ feed, ?_, ?_⟩
  · rw [withoutBreak, ← List.append_assoc, ← bare]
    exact whole
  · simp only [allBlank, List.all_append, Bool.and_eq_true]
    exact ⟨blankEnding, blankFeed⟩

theorem trimEnd_withoutBreak (line : List Char) : trimEnd (withoutBreak line) = trimEnd line := by
  obtain ⟨ending, whole, blank⟩ := exists_withoutBreak_append line
  have same := trimEnd_append_of_allBlank (withoutBreak line) blank
  rw [← whole] at same
  exact same.symm

theorem trim_withoutBreak (line : List Char) : trim (withoutBreak line) = trim line := by
  obtain ⟨ending, whole, blank⟩ := exists_withoutBreak_append line
  have same := trim_append_of_allBlank (withoutBreak line) blank
  rw [← whole] at same
  exact same.symm

theorem allBlank_withoutBreak (line : List Char)
    : allBlank (withoutBreak line) = allBlank line := by
  rw [Bool.eq_iff_iff, ← trim_eq_nil_iff, ← trim_eq_nil_iff, trim_withoutBreak]

/-- The line feed behind a line is a part of its break, whether or not it is there. -/
theorem withoutBreak_append_feed {line : List Char} (plain : '\n' ∉ line)
    : withoutBreak (line ++ ['\n']) = withoutBreak line := by
  have kept : stripEnd? ['\n'] line = none :=
    stripEnd?_eq_none fun last => plain (List.mem_of_getLast? last)
  rw [withoutBreak, withoutBreak, withoutFeed, withoutFeed, kept, stripEnd?_eq_some_iff.mpr rfl]
  rfl

end Publication.Text
