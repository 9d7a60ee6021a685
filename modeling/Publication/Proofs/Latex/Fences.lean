import Publication.Latex.Region
import Publication.Proofs.Text.Lines

/-! Fences of code. The scan of a body has tests of its own for the lines that open and close fenced
code; they differ from the grammar of markdown on lines of two kinds.
-/

namespace Publication.Latex

open Publication.Text

-----------------------------------------------------------------------------------------
-- Fences by the grammar of markdown
-----------------------------------------------------------------------------------------

/-- The run of marks that a line opens fenced code with: three or more backticks or tildes behind at
most three spaces, and no more backticks behind backticks.
-/
def openingRun? (line : List Char) : Option (List Char) :=
  match line.dropWhile (· = ' ') with
  | mark :: rest =>
      let run := mark :: rest.takeWhile (· = mark)
      let info := rest.dropWhile (· = mark)
      if (line.takeWhile (· = ' ')).length ≤ 3 ∧ 3 ≤ run.length
          ∧ (mark = '~' ∨ mark = '\x60' ∧ '\x60' ∉ info) then some run
      else none
  | [] => none

/-- Whether a line closes fenced code: no fewer of the same marks behind at most three spaces, and
nothing but spaces and tabs behind them.
-/
def closesRun (run line : List Char) : Bool :=
  let bare := withoutBreak line
  let text := bare.dropWhile (· = ' ')
  let marks := text.takeWhile fun c => some c = run.head?
  let rest := text.dropWhile fun c => some c = run.head?
  (bare.takeWhile (· = ' ')).length ≤ 3 && run.length ≤ marks.length
    && rest.all fun c => c = ' ' || c = '\t'

/-- The run that the code behind a line is fenced with, if any, given that before the line. -/
def readLine : Option (List Char) → List Char → Option (List Char)
  | none, line => openingRun? line
  | some run, line => if closesRun run line then none else some run

/-- The fence that the scan keeps behind a line. -/
def scanLine : Option (List Char) → List Char → Option (List Char)
  | none, line => fence? line
  | some run, line => if closesFence run line then none else some run

/-- Three or more of one mark. -/
structure IsFence (run : List Char) (mark : Char) : Prop where
  isMark : mark = '\x60' ∨ mark = '~'
  wide : 3 ≤ run.length
  same : run = List.replicate run.length mark

-----------------------------------------------------------------------------------------
-- Lines that open fenced code
-----------------------------------------------------------------------------------------

/-- A line cut into spaces, a run of one character and what follows it. -/
structure RunCut (line : List Char) (indent : Nat) (mark : Char) (width : Nat) (info : List Char)
    : Prop where
  shown : mark ≠ ' '
  filled : 0 < width
  ends : info.head? ≠ some mark
  whole : line = List.replicate indent ' ' ++ (List.replicate width mark ++ info)

/-- A line of nothing but spaces has no run, and any other has one. -/
theorem exists_runCut (line : List Char)
    : (∃ n, line = List.replicate n ' ') ∨ ∃ indent mark width info,
        RunCut line indent mark width info := by
  obtain ⟨indent, text, whole, stops⟩ := exists_eq_replicate_append ' ' line
  cases text with
  | nil => exact .inl ⟨indent, by rw [whole, List.append_nil]⟩
  | cons mark text =>
      have shown : mark ≠ ' ' := fun same => stops (by rw [same]; rfl)
      obtain ⟨more, info, behind, ends⟩ := exists_eq_replicate_append mark text
      refine .inr ⟨indent, mark, more + 1, info, shown, Nat.succ_pos more, ends, ?_⟩
      rw [whole, behind]
      rfl

section

variable {line info : List Char} {indent width : Nat} {mark : Char}

theorem RunCut.text (cut : RunCut line indent mark width info)
    : line.takeWhile (· = ' ') = List.replicate indent ' '
      ∧ ∃ rest,
          List.replicate width mark = mark :: rest.takeWhile (· = mark)
          ∧ rest.dropWhile (· = mark) = info
          ∧ line.dropWhile (· = ' ') = mark :: rest := by
  obtain ⟨more, rfl⟩ := Nat.exists_eq_add_of_le' cut.filled
  have stops : (List.replicate (more + 1) mark ++ info).head? ≠ some ' ' := by
    intro same
    exact cut.shown (Option.some.inj same)
  obtain ⟨spaces, text⟩ := takeWhile_replicate_append indent stops
  obtain ⟨marks, behind⟩ := takeWhile_replicate_append more cut.ends
  rw [← cut.whole] at spaces text
  exact ⟨spaces, List.replicate more mark ++ info, by rw [marks]; rfl, behind, text⟩

theorem RunCut.fence?_eq (cut : RunCut line indent mark width info)
    : fence? line
      = if indent ≤ 3 ∧ 3 ≤ width ∧ (mark = '\x60' ∨ mark = '~') then
          some (List.replicate width mark)
        else none := by
  obtain ⟨spaces, rest, run, _, text⟩ := cut.text
  have length : (line.takeWhile (· = ' ')).length = indent := by
    rw [spaces, List.length_replicate]
  have dropped : line.drop indent = mark :: rest := by
    have whole : line.takeWhile (· = ' ') ++ line.dropWhile (· = ' ') = line :=
      List.takeWhile_append_dropWhile
    rw [spaces, text] at whole
    rw [← whole, List.drop_left' List.length_replicate]
  simp only [fence?, length, dropped, ← run, List.length_replicate]
  congr 1
  simp only [Bool.and_eq_true, decide_eq_true_eq, Bool.or_eq_true, beq_iff_eq, eq_iff_iff]
  exact ⟨fun ⟨⟨shallow, known⟩, wide⟩ => ⟨shallow, wide, known⟩,
    fun ⟨shallow, wide, known⟩ => ⟨⟨shallow, known⟩, wide⟩⟩

theorem RunCut.openingRun?_eq (cut : RunCut line indent mark width info)
    : openingRun? line
      = if indent ≤ 3 ∧ 3 ≤ width ∧ (mark = '~' ∨ mark = '\x60' ∧ '\x60' ∉ info) then
          some (List.replicate width mark)
        else none := by
  obtain ⟨spaces, rest, run, behind, text⟩ := cut.text
  simp only [openingRun?, text, spaces, behind, ← run, List.length_replicate]

end

-----------------------------------------------------------------------------------------
-- Lines that close fenced code
-----------------------------------------------------------------------------------------

/-- Blanks that marks close code between, by the grammar of markdown. -/
structure SetsOff (front back : List Char) : Prop where
  spaces : ∀ c ∈ front, c = ' '
  shallow : front.length ≤ 3
  behind : ∀ c ∈ withoutBreak back, c = ' ' ∨ c = '\t'

theorem SetsOff.allBlank {front back : List Char} (sets : SetsOff front back)
    : allBlank front = true ∧ allBlank back = true := by
  obtain ⟨ending, whole, blank⟩ := exists_withoutBreak_append back
  refine ⟨List.all_eq_true.mpr fun c member => ?_, ?_⟩
  · rw [sets.spaces c member]
    rfl
  · rw [whole, Text.allBlank, List.all_append, Bool.and_eq_true]
    refine ⟨List.all_eq_true.mpr fun c member => ?_, blank⟩
    rcases sets.behind c member with rfl | rfl <;> rfl

section

variable {run line front back others : List Char} {mark : Char} {count : Nat}

theorem IsFence.shown (fence : IsFence run mark) : isBlank mark = false := by
  rcases fence.isMark with rfl | rfl <;> rfl

theorem IsFence.head? (fence : IsFence run mark) : run.head? = some mark := by
  have wide := fence.wide
  have same := fence.same
  cases run with
  | nil => simp at wide
  | cons c run =>
      rw [same]
      rfl

/-- Marks between blanks are found in one way. -/
theorem IsFence.cut_inj (fence : IsFence run mark) {front' back' : List Char} {count' : Nat}
    (blankFront : allBlank front = true) (blankBack : allBlank back = true)
    (blankFront' : allBlank front' = true) (blankBack' : allBlank back' = true)
    (wide : run.length ≤ count) (wide' : run.length ≤ count')
    (same
      : front ++ (List.replicate count mark ++ back)
        = front' ++ (List.replicate count' mark ++ back'))
    : front = front' ∧ back = back' := by
  have long := fence.wide
  have before {s t : List Char} {n : Nat} (blank : allBlank s = true) (filled : run.length ≤ n)
      : (s ++ (List.replicate n mark ++ t)).takeWhile isBlank = s := by
    obtain ⟨m, rfl⟩ : ∃ m, n = m + 1 := ⟨n - 1, by omega⟩
    rw [List.takeWhile_append_of_pos (List.all_eq_true.mp blank), List.replicate_succ,
      List.cons_append, List.takeWhile_cons_of_neg (by rw [fence.shown]; decide), List.append_nil]
  have ends {s : List Char} (blank : allBlank s = true) : s.head? ≠ some mark := by
    intro first
    have inside := List.all_eq_true.mp blank mark (List.mem_of_mem_head? first)
    exact absurd inside (Bool.eq_false_iff.mp fence.shown)
  have fronts : front = front' := by
    have cut := congrArg (List.takeWhile isBlank) same
    rwa [before blankFront wide, before blankFront' wide'] at cut
  subst fronts
  have backs := congrArg (List.dropWhile (· = mark)) (List.append_cancel_left same)
  rw [(takeWhile_replicate_append _ (ends blankBack)).2,
    (takeWhile_replicate_append _ (ends blankBack')).2] at backs
  exact ⟨rfl, backs⟩

/-- The scan takes a line to close code if it is marks enough between any blanks. -/
theorem IsFence.closesFence_iff (fence : IsFence run mark)
    : closesFence run line = true
      ↔ ∃ front count back,
          line = front ++ (List.replicate count mark ++ back)
          ∧ allBlank front = true ∧ allBlank back = true ∧ run.length ≤ count := by
  have long := fence.wide
  simp only [closesFence, Bool.and_eq_true, decide_eq_true_eq, fence.head?, List.all_eq_true,
    beq_iff_eq, Option.some.injEq]
  constructor
  · rintro ⟨wide, marks⟩
    have core : trim line = List.replicate (trim line).length mark :=
      List.eq_replicate_of_mem fun c member => (marks c member).symm
    obtain ⟨back, whole, blank⟩ := exists_trimEnd_append (trimStart line)
    refine ⟨line.takeWhile isBlank, (trim line).length, back, ?_, List.all_takeWhile, blank, wide⟩
    rw [← core, trim, ← whole, trimStart, List.takeWhile_append_dropWhile]
  · rintro ⟨front, count, back, rfl, blankFront, blankBack, wide⟩
    obtain ⟨more, rfl⟩ : ∃ more, count = more + 1 := ⟨count - 1, by omega⟩
    have start : trimStart (front ++ (List.replicate (more + 1) mark ++ back))
        = List.replicate (more + 1) mark ++ back := by
      rw [trimStart, List.dropWhile_append_of_pos (List.all_eq_true.mp blankFront),
        List.replicate_succ, List.cons_append,
        List.dropWhile_cons_of_neg (by rw [fence.shown]; decide)]
    have last : (List.replicate (more + 1) mark).getLast? = some mark := by
      rw [List.getLast?_replicate, if_neg (Nat.succ_ne_zero more)]
    rw [trim, start, trimEnd_append_of_allBlank _ blankBack, trimEnd_of_getLast? last fence.shown]
    exact ⟨by rwa [List.length_replicate], fun c member => (List.eq_of_mem_replicate member).symm⟩

/-- The break at the end of a line stands behind marks that are enough to close code. -/
theorem IsFence.withoutBreak_marks (fence : IsFence run mark) (wide : run.length ≤ count)
    : withoutBreak (front ++ (List.replicate count mark ++ back))
      = front ++ (List.replicate count mark ++ withoutBreak back) := by
  have long := fence.wide
  have last : (front ++ List.replicate count mark).getLast? = some mark := by
    rw [List.getLast?_append, List.getLast?_replicate, if_neg (by omega)]
    rfl
  rw [← List.append_assoc, withoutBreak_append last fence.shown, List.append_assoc]

/-- What the grammar asks of a line that is cut into spaces, marks and what follows them. -/
theorem IsFence.closesRun_cut (fence : IsFence run mark) {indent : Nat} {rest : List Char}
    (bare : withoutBreak line = List.replicate indent ' ' ++ (List.replicate count mark ++ rest))
    (shown : (List.replicate count mark ++ rest).head? ≠ some ' ')
    (ends : rest.head? ≠ some mark)
    : closesRun run line = true
      ↔ indent ≤ 3 ∧ run.length ≤ count ∧ ∀ c ∈ rest, c = ' ' ∨ c = '\t' := by
  have same : (fun c => decide (some c = run.head?)) = fun c => decide (c = mark) := by
    funext c
    rw [fence.head?]
    simp
  obtain ⟨indented, unindented⟩ := takeWhile_replicate_append indent shown
  obtain ⟨marked, unmarked⟩ := takeWhile_replicate_append count ends
  simp only [closesRun, same, bare, indented, unindented, marked, unmarked, List.length_replicate,
    Bool.and_eq_true, decide_eq_true_eq, List.all_eq_true, Bool.or_eq_true, and_assoc]

/-- By the grammar the blanks are to set off the marks. -/
theorem IsFence.closesRun_iff (fence : IsFence run mark)
    : closesRun run line = true
      ↔ ∃ front count back,
          line = front ++ (List.replicate count mark ++ back)
          ∧ SetsOff front back ∧ run.length ≤ count := by
  constructor
  · intro closes
    obtain ⟨indent, text, spaces, shown⟩ := exists_eq_replicate_append ' ' (withoutBreak line)
    obtain ⟨count, rest, rfl, ends⟩ := exists_eq_replicate_append mark text
    obtain ⟨shallow, wide, behind⟩ := (fence.closesRun_cut spaces shown ends).mp closes
    obtain ⟨ending, whole, _⟩ := exists_withoutBreak_append line
    have cut : line
        = List.replicate indent ' ' ++ (List.replicate count mark ++ (rest ++ ending)) := by
      rw [whole, spaces, List.append_assoc, List.append_assoc]
    refine ⟨_, count, rest ++ ending, cut, ⟨?_, ?_, ?_⟩, wide⟩
    · exact fun c member => List.eq_of_mem_replicate member
    · rwa [List.length_replicate]
    · rw [cut, fence.withoutBreak_marks wide] at spaces
      rwa [List.append_cancel_left (List.append_cancel_left spaces)]
  · rintro ⟨front, count, back, rfl, sets, wide⟩
    have long := fence.wide
    have spaces : front = List.replicate front.length ' ' :=
      List.eq_replicate_of_mem sets.spaces
    have shown : (List.replicate count mark ++ withoutBreak back).head? ≠ some ' ' := by
      obtain ⟨more, rfl⟩ : ∃ more, count = more + 1 := ⟨count - 1, by omega⟩
      intro first
      obtain rfl : mark = ' ' := Option.some.inj first
      exact absurd fence.shown (by decide)
    have ends : (withoutBreak back).head? ≠ some mark := by
      intro first
      rcases sets.behind mark (List.mem_of_mem_head? first) with rfl | rfl <;>
        exact absurd fence.shown (by decide)
    have bare : withoutBreak (front ++ (List.replicate count mark ++ back))
        = List.replicate front.length ' ' ++ (List.replicate count mark ++ withoutBreak back) := by
      rw [fence.withoutBreak_marks wide, ← spaces]
    exact (fence.closesRun_cut bare shown ends).mpr ⟨sets.shallow, wide, sets.behind⟩

theorem IsFence.closesFence_of_closesRun (fence : IsFence run mark)
    (closes : closesRun run line = true)
    : closesFence run line = true := by
  obtain ⟨front, count, back, whole, sets, wide⟩ := fence.closesRun_iff.mp closes
  obtain ⟨blankFront, blankBack⟩ := sets.allBlank
  exact fence.closesFence_iff.mpr ⟨front, count, back, whole, blankFront, blankBack, wide⟩

end

-----------------------------------------------------------------------------------------
-- Lines that are misread
-----------------------------------------------------------------------------------------

/-- A line that the scan takes for a fence and the grammar does not, outside code or in it. -/
inductive Misread : Option (List Char) → List Char → Prop
  /-- A code span begins the line: there are more backticks behind the first ones. -/
  | span {indent width : Nat} {info : List Char} (shallow : indent ≤ 3) (wide : 3 ≤ width)
    (ends : info.head? ≠ some '\x60') (again : '\x60' ∈ info)
    : Misread none (List.replicate indent ' ' ++ (List.replicate width '\x60' ++ info))
  /-- Marks enough to close the code stand between blanks that do not set them off. -/
  | marks {run front back : List Char} {mark : Char} {count : Nat} (fence : IsFence run mark)
    (wide : run.length ≤ count) (blankFront : allBlank front = true)
    (blankBack : allBlank back = true) (odd : ¬ SetsOff front back)
    : Misread (some run) (front ++ (List.replicate count mark ++ back))

/-- Behind a line that is misread the grammar is where it was, and the scan is not. -/
theorem Misread.turns {code : Option (List Char)} {line : List Char} (misread : Misread code line)
    : readLine code line = code ∧ scanLine code line ≠ code := by
  cases misread with
  | @span indent width info shallow wide ends again =>
      have cut : RunCut _ indent '\x60' width info := ⟨by decide, by omega, ends, rfl⟩
      constructor
      · rw [readLine, cut.openingRun?_eq, if_neg]
        rintro ⟨_, _, other | ⟨_, none⟩⟩
        · cases other
        · exact none again
      · rw [scanLine, cut.fence?_eq, if_pos ⟨shallow, wide, .inl rfl⟩]
        exact Option.some_ne_none _
  | @marks run front back mark count fence wide blankFront blankBack odd =>
      constructor
      · rw [readLine, if_neg]
        intro closes
        obtain ⟨front', count', back', same, sets, wide'⟩ := fence.closesRun_iff.mp closes
        obtain ⟨rfl, rfl⟩ := fence.cut_inj blankFront blankBack sets.allBlank.1 sets.allBlank.2
          wide wide' same
        exact odd sets
      · rw [scanLine, if_pos]
        · exact (Option.some_ne_none run).symm
        · exact fence.closesFence_iff.mpr ⟨front, count, back, rfl, blankFront, blankBack, wide⟩

theorem fence?_replicate_space (n : Nat) : fence? (List.replicate n ' ') = none := by
  simp [fence?]

theorem openingRun?_replicate_space (n : Nat) : openingRun? (List.replicate n ' ') = none := by
  simp [openingRun?]

/-- A line opens code with three or more of one mark. -/
theorem exists_isFence_of_openingRun? {line run : List Char} (opens : openingRun? line = some run)
    : ∃ mark, IsFence run mark := by
  rcases exists_runCut line with ⟨n, rfl⟩ | ⟨indent, mark, width, info, cut⟩
  · rw [openingRun?_replicate_space] at opens
    cases opens
  · rw [cut.openingRun?_eq] at opens
    split at opens
    next opening =>
        cases opens
        have isMark : mark = '\x60' ∨ mark = '~' := opening.2.2.symm.imp_left And.left
        exact ⟨mark, isMark, by simpa using opening.2.1, by simp⟩
    next => cases opens

/-- The scan takes no line to open code with anything else. -/
theorem exists_isFence_of_fence? {line run : List Char} (opens : fence? line = some run)
    : ∃ mark, IsFence run mark := by
  rcases exists_runCut line with ⟨n, rfl⟩ | ⟨indent, mark, width, info, cut⟩
  · rw [fence?_replicate_space] at opens
    cases opens
  · rw [cut.fence?_eq] at opens
    split at opens
    next opening =>
        cases opens
        exact ⟨mark, opening.2.2, by simpa using opening.2.1, by simp⟩
    next => cases opens

/-- Outside code the scan and the grammar part only on a code span. -/
theorem misread_of_fence?_ne {line : List Char} (parted : fence? line ≠ openingRun? line)
    : Misread none line := by
  rcases exists_runCut line with ⟨n, rfl⟩ | ⟨indent, mark, width, info, cut⟩
  · rw [fence?_replicate_space, openingRun?_replicate_space] at parted
    exact absurd rfl parted
  · rw [cut.fence?_eq, cut.openingRun?_eq] at parted
    by_cases fenced : indent ≤ 3 ∧ 3 ≤ width ∧ (mark = '\x60' ∨ mark = '~')
    · obtain ⟨shallow, wide, isMark⟩ := fenced
      have backtick : mark = '\x60' ∧ '\x60' ∈ info := by
        refine Decidable.not_not.mp fun other => parted ?_
        rw [if_pos ⟨shallow, wide, isMark⟩, if_pos]
        refine ⟨shallow, wide, isMark.symm.imp_right fun same => ⟨same, fun again => ?_⟩⟩
        exact other ⟨same, again⟩
      obtain ⟨rfl, again⟩ := backtick
      rw [cut.whole]
      exact .span shallow wide cut.ends again
    · refine absurd ?_ parted
      rw [if_neg fenced, if_neg]
      rintro ⟨shallow, wide, opening⟩
      exact fenced ⟨shallow, wide, opening.symm.imp_left And.left⟩

/-- In code they part only on marks that are not set off: what closes code by the grammar closes it
for the scan.
-/
theorem IsFence.misread_of_closesFence {run line : List Char} {mark : Char}
    (fence : IsFence run mark) (parted : closesFence run line ≠ closesRun run line)
    : Misread (some run) line := by
  cases taken : closesFence run line with
  | true =>
      obtain ⟨front, count, back, rfl, blankFront, blankBack, wide⟩ :=
        fence.closesFence_iff.mp taken
      refine .marks fence wide blankFront blankBack fun sets => parted ?_
      rw [taken, fence.closesRun_iff.mpr ⟨front, count, back, rfl, sets, wide⟩]
  | false =>
      refine absurd (Bool.eq_false_iff.mpr fun closes => ?_).symm (taken ▸ parted)
      rw [fence.closesFence_of_closesRun closes] at taken
      cases taken

/-- The scan and the grammar part on lines that are misread, and on no others. -/
theorem misread_iff {code : Option (List Char)} {line : List Char}
    (known : ∀ run ∈ code, ∃ mark, IsFence run mark)
    : Misread code line ↔ scanLine code line ≠ readLine code line := by
  constructor
  · intro misread
    obtain ⟨stays, turns⟩ := misread.turns
    rwa [stays]
  · intro parted
    cases code with
    | none => exact misread_of_fence?_ne parted
    | some run =>
        obtain ⟨mark, fence⟩ := known run rfl
        refine fence.misread_of_closesFence fun same => parted ?_
        rw [scanLine, readLine, same]

end Publication.Latex
