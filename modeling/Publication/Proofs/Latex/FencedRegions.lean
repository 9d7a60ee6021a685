import Mathlib.Data.List.Induction
import Publication.Proofs.Latex.Fences
import Publication.Proofs.Latex.Regions

/-! Regions and fenced code. The scan of a body keeps regions and code apart as the grammar of
markdown does, but for regions behind a line that it has misread, until it comes back to the
grammar.
-/

namespace Publication.Latex

open Publication.Text

-----------------------------------------------------------------------------------------
-- The lines of a body
-----------------------------------------------------------------------------------------

/-- What a line of a body is to the scan: markdown, the first line of a region or another one. -/
inductive Role where
  | text
  | first
  | inner
deriving Repr, DecidableEq

/-- The lines of a region with their roles. -/
def markRegion : List (List Char) → List (Role × List Char)
  | [] => []
  | line :: rest => (.first, line) :: rest.map (.inner, ·)

/-- The lines of a part with their roles. -/
def Part.marked : Part → List (Role × List Char)
  | .markdown text => (lines text).map (.text, ·)
  | .latex raw => markRegion (lines raw)

/-- The lines of a body with their roles. -/
def markedLines (body : List Char) : List (Role × List Char) := (parts body).flatMap Part.marked

/-- The run that the code behind a line is fenced with. Lines of regions are skipped. -/
def readOn (code : Option (List Char)) : Role × List Char → Option (List Char)
  | (.text, line) => readLine code line
  | _ => code

/-- The fence that the scan keeps behind a line. Lines of regions are skipped. -/
def scanOn (fence : Option (List Char)) : Role × List Char → Option (List Char)
  | (.text, line) => scanLine fence line
  | _ => fence

/-- The run that the code behind lines is fenced with, by the grammar of markdown. -/
def codeBehind (code : Option (List Char)) (marked : List (Role × List Char))
    : Option (List Char) :=
  marked.foldl readOn code

/-- The fence that the scan keeps behind lines. -/
def fenceBehind (fence : Option (List Char)) (marked : List (Role × List Char))
    : Option (List Char) :=
  marked.foldl scanOn fence

/-- No region starts inside fenced code. -/
def RegionsOutsideCode (body : List Char) : Prop :=
  ∀ before line after,
    markedLines body = before ++ (.first, line) :: after → codeBehind none before = none

/-- The line before the next one: the last of the lines, or the given one if there are none. -/
def lineBefore (start : List Char) (marked : List (Role × List Char)) : List Char :=
  (marked.getLast?.map (·.2)).getD start

/-- A line of a body is to start a region: it has the opener and stands behind a blank line or at
the start, and neither in a region nor in fenced code.
-/
structure Opens (body : List Char) (before : List (Role × List Char)) (role : Role) : Prop where
  cut : ∃ text after, markedLines body = before ++ (role, opener ++ text) :: after
  blank : allBlank (lineBefore [] before) = true
  outer : role ≠ .inner
  outside : codeBehind none before = none

/-- Every line that is to start a region does. -/
def RegionsFound (body : List Char) : Prop :=
  ∀ before role, Opens body before role → role = .first

/-- A line outside regions was misread, and the scan has not come back to the grammar behind it. -/
def Astray (marked : List (Role × List Char)) : Prop :=
  ∃ front line back,
    marked = front ++ (.text, line) :: back
    ∧ fenceBehind none front = codeBehind none front
    ∧ Misread (codeBehind none front) line
    ∧ ∀ more,
        more <+: back
        → fenceBehind none (front ++ (.text, line) :: more)
          ≠ codeBehind none (front ++ (.text, line) :: more)

-----------------------------------------------------------------------------------------
-- The roles that the scan gives
-----------------------------------------------------------------------------------------

/-- Whether the scan starts a region on a line, given its fence and whether it stands behind a blank
line.
-/
def StartsRegion (fence : Option (List Char)) (afterBlank : Bool) (line : List Char) : Prop :=
  fence = none ∧ fence? line = none ∧ afterBlank = true ∧ (strip? opener line).isSome = true

instance (fence : Option (List Char)) (afterBlank : Bool) (line : List Char)
    : Decidable (StartsRegion fence afterBlank line) :=
  inferInstanceAs (Decidable (_ ∧ _))

/-- Whether the scan takes the line behind one as standing behind a blank line. -/
def leavesBlank (fence : Option (List Char)) (line : List Char) : Bool :=
  fence.isNone && (fence? line).isNone && allBlank line

/-- The roles that the scan gives to lines one by one, the first `skip` of which belong to a region
that was begun.
-/
def label
    : (fence : Option (List Char)) → (afterBlank : Bool) → (skip : Nat) → List (List Char)
      → List (Role × List Char)
  | _, _, _, [] => []
  | fence, afterBlank, skip + 1, line :: rest => (.inner, line) :: label fence afterBlank skip rest
  | fence, afterBlank, 0, line :: rest =>
      if StartsRegion fence afterBlank line then
        (.first, line) :: label none false (regionLength (line :: rest) - 1) rest
      else (.text, line) :: label (scanLine fence line) (leavesBlank fence line) 0 rest

/-- The lines that are skipped are those of the region, by induction on their number. -/
theorem take_label (fence : Option (List Char)) (afterBlank : Bool) (skip : Nat)
    (found : List (List Char))
    : (label fence afterBlank skip found).take skip = (found.take skip).map (.inner, ·) := by
  induction skip generalizing found with
  | zero => rfl
  | succ skip ih =>
      cases found with
      | nil => rfl
      | cons line rest => exact congrArg ((Role.inner, line) :: ·) (ih rest)

theorem marked_flush {scan : Scan} (cut : AreLines scan.pending.reverse)
    : scan.flush.flatMap Part.marked = scan.pending.reverse.map (.text, ·) := by
  cases pending : scan.pending with
  | nil => simp [Scan.flush, pending]
  | cons line rest =>
      rw [pending] at cut
      simp [Scan.flush, pending, Part.marked, cut.lines_flatten, -List.flatten_append,
        -List.reverse_cons]

/-- One line of a scan. -/
theorem scanLines_zero (scan : Scan) (line : List Char) (rest : List (List Char))
    : scanLines scan 0 (line :: rest)
      = if StartsRegion scan.fence scan.afterBlank line then
          scan.flush
            ++ .latex (line :: rest.take (regionLength (line :: rest) - 1)).flatten
              :: scanLines ⟨none, false, []⟩ (regionLength (line :: rest) - 1) rest
        else
          scanLines
            ⟨scanLine scan.fence line, leavesBlank scan.fence line, line :: scan.pending⟩
            0 rest := by
  cases inside : scan.fence with
  | some run => simp [scanLines, scanLine, StartsRegion, leavesBlank, inside]
  | none =>
      cases opens : fence? line with
      | some run => simp [scanLines, scanLine, StartsRegion, leavesBlank, inside, opens]
      | none =>
          simp only [scanLines, scanLine, StartsRegion, leavesBlank, inside, opens,
            Bool.and_eq_true, true_and, Option.isNone_none, Bool.true_and]

/-- The parts of a scan are marked as the scan labels lines, by induction on them. -/
theorem marked_scanLines (scan : Scan) (skip : Nat) {found : List (List Char)}
    (cut : AreLines (scan.pending.reverse ++ found)) (fresh : skip ≠ 0 → scan.pending = [])
    : (scanLines scan skip found).flatMap Part.marked
      = scan.pending.reverse.map (.text, ·)
        ++ (label scan.fence scan.afterBlank skip found).drop skip := by
  induction found generalizing scan skip with
  | nil =>
      have whole : AreLines scan.pending.reverse := by simpa using cut
      cases skip <;> simp [scanLines, label, marked_flush whole]
  | cons line rest ih =>
      cases skip with
      | succ skip =>
          have none_pending := fresh (Nat.succ_ne_zero skip)
          have behind := ih scan skip (by rw [none_pending] at cut ⊢; exact cut.tail)
            fun _ => none_pending
          simpa [scanLines, label] using behind
      | zero =>
          rw [scanLines_zero, label]
          split
          next starts =>
              -- What is pending becomes a part, and the lines of the region are skipped.
              have region := cut.drop
              generalize regionLength (line :: rest) - 1 = more
              have lines : lines (line :: rest.take more).flatten = line :: rest.take more := by
                have whole : AreLines ((line :: rest.take more) ++ rest.drop more) := by
                  rwa [List.cons_append, List.take_append_drop]
                exact whole.take.lines_flatten
              have behind := ih ⟨none, false, []⟩ more region.tail fun _ => rfl
              have skipped := take_label none false more rest
              rw [List.flatMap_append, List.flatMap_cons, marked_flush cut.take, behind,
                Part.marked, lines, markRegion, ← skipped]
              simp
          next =>
              -- The line is pending with those before it.
              have behind := ih
                ⟨scanLine scan.fence line, leavesBlank scan.fence line, line :: scan.pending⟩ 0
                (by simpa using cut) fun other => absurd rfl other
              rw [behind]
              simp

/-- The lines of a body are marked as the scan labels them. -/
theorem markedLines_eq (body : List Char) : markedLines body = label none true 0 (lines body) :=
  marked_scanLines {} 0 (areLines_lines body) fun other => absurd rfl other

-----------------------------------------------------------------------------------------
-- The fence of the scan and that of the grammar
-----------------------------------------------------------------------------------------

/-- Code is fenced with three or more of one mark. -/
def Known (code : Option (List Char)) : Prop := ∀ run ∈ code, ∃ mark, IsFence run mark

theorem known_none : Known none := nofun

theorem Known.readOn {code : Option (List Char)} (known : Known code) (head : Role × List Char)
    : Known (readOn code head) := by
  obtain ⟨role, line⟩ := head
  cases role with
  | first => exact known
  | inner => exact known
  | text =>
      cases code with
      | none => exact fun run => exists_isFence_of_openingRun?
      | some fence =>
          simp only [Latex.readOn, readLine]
          split
          · exact known_none
          · exact known

theorem Known.scanOn {code : Option (List Char)} (known : Known code) (head : Role × List Char)
    : Known (scanOn code head) := by
  obtain ⟨role, line⟩ := head
  cases role with
  | first => exact known
  | inner => exact known
  | text =>
      cases code with
      | none => exact fun run => exists_isFence_of_fence?
      | some fence =>
          simp only [Latex.scanOn, scanLine]
          split
          · exact known_none
          · exact known

/-- The grammar knows its fence behind lines, by induction on them. -/
theorem known_codeBehind {code : Option (List Char)} (known : Known code)
    (marked : List (Role × List Char))
    : Known (codeBehind code marked) := by
  induction marked generalizing code with
  | nil => exact known
  | cons head rest ih => exact ih (known.readOn head)

theorem codeBehind_append_singleton (code : Option (List Char))
    (marked : List (Role × List Char)) (head : Role × List Char)
    : codeBehind code (marked ++ [head]) = readOn (codeBehind code marked) head := by
  rw [codeBehind, List.foldl_append]
  rfl

theorem fenceBehind_append_singleton (fence : Option (List Char))
    (marked : List (Role × List Char)) (head : Role × List Char)
    : fenceBehind fence (marked ++ [head]) = scanOn (fenceBehind fence marked) head := by
  rw [fenceBehind, List.foldl_append]
  rfl

/-- The scan and the grammar part behind a line that is misread, as long as they do not meet again;
and in no other way. By induction on the lines from the last one.
-/
theorem astray_iff (marked : List (Role × List Char))
    : Astray marked ↔ fenceBehind none marked ≠ codeBehind none marked := by
  constructor
  · rintro ⟨front, line, back, rfl, _, _, apart⟩
    exact apart back (List.prefix_refl _)
  · intro parted
    induction marked using List.reverseRecOn with
    | nil => exact absurd rfl parted
    | append_singleton front head ih =>
        by_cases met : fenceBehind none front = codeBehind none front
        · -- This line parts the two, so it is outside regions and misread.
          obtain ⟨role, line⟩ := head
          have parted' := parted
          rw [fenceBehind_append_singleton, codeBehind_append_singleton, met] at parted'
          cases role with
          | first => exact absurd rfl parted'
          | inner => exact absurd rfl parted'
          | text =>
              have misread := (misread_iff (known_codeBehind known_none front)).mpr parted'
              refine ⟨front, line, [], rfl, met, misread, ?_⟩
              intro more within
              rw [List.prefix_nil.mp within]
              exact parted
        · -- They have parted before, and this line does not bring them together.
          obtain ⟨first, line, back, rfl, agreed, misread, apart⟩ := ih met
          refine ⟨first, line, back ++ [head], by simp, agreed, misread, ?_⟩
          intro more within
          rcases List.prefix_concat_iff.mp within with rfl | within
          · simpa using parted
          · exact apart more within

-----------------------------------------------------------------------------------------
-- Lines that start regions
-----------------------------------------------------------------------------------------

/-- What the scan makes of a line: a role, whether the next one stands behind a blank line, and how
many lines are left of a region.
-/
inductive Step (fence : Option (List Char)) (afterBlank : Bool) (line : List Char)
    (rest : List (List Char))
    : (skip : Nat) → Role → Bool → (left : Nat) → Prop
  | inner {skip : Nat} : Step fence afterBlank line rest (skip + 1) .inner afterBlank skip
  | first (starts : StartsRegion fence afterBlank line)
    : Step fence afterBlank line rest 0 .first false (regionLength (line :: rest) - 1)
  | text (passes : ¬ StartsRegion fence afterBlank line)
    : Step fence afterBlank line rest 0 .text (leavesBlank fence line) 0

theorem exists_step (fence : Option (List Char)) (afterBlank : Bool) (skip : Nat)
    (line : List Char) (rest : List (List Char))
    : ∃ role next left,
        Step fence afterBlank line rest skip role next left
        ∧ label fence afterBlank skip (line :: rest)
          = (role, line) :: label (scanOn fence (role, line)) next left rest := by
  cases skip with
  | succ skip => exact ⟨.inner, afterBlank, skip, .inner, rfl⟩
  | zero =>
      by_cases starts : StartsRegion fence afterBlank line
      · obtain rfl : fence = none := starts.1
        exact ⟨.first, false, _, .first starts, if_pos starts⟩
      · exact ⟨.text, leavesBlank fence line, 0, .text starts, if_neg starts⟩

section

variable {fence : Option (List Char)} {afterBlank : Bool} {skip : Nat} {line : List Char}
  {rest found : List (List Char)} {before after : List (Role × List Char)}

/-- Where a region starts the scan has no fence, by induction on the lines. -/
theorem fenceBehind_eq_none
    (there : label fence afterBlank skip found = before ++ (.first, line) :: after)
    : fenceBehind fence before = none := by
  induction found generalizing fence afterBlank skip before with
  | nil => cases skip <;> simp [label] at there
  | cons head rest ih =>
      obtain ⟨role, next, left, step, whole⟩ := exists_step fence afterBlank skip head rest
      rw [whole] at there
      cases before with
      | nil =>
          obtain ⟨rfl, _⟩ := Prod.mk.inj (List.cons.inj there).1
          cases step with
          | first starts => exact starts.1
      | cons _ before =>
          obtain ⟨rfl, behind⟩ := List.cons.inj there
          change fenceBehind (scanOn fence (role, head)) before = none
          exact ih behind

theorem exists_opener_eq : ∃ rest, opener = '\\' :: rest := ⟨opener.tail, by decide⟩

/-- A line with the opener is no fence. -/
theorem fence?_opener_append (text : List Char) : fence? (opener ++ text) = none := by
  obtain ⟨rest, whole⟩ := exists_opener_eq
  rw [whole, List.cons_append]
  simp [fence?]

/-- A line that closes code is not blank. -/
theorem IsFence.allBlank_eq_false {run : List Char} {mark : Char} (fence : IsFence run mark)
    (closes : closesFence run line = true)
    : allBlank line = false := by
  obtain ⟨front, count, back, rfl, _, _, wide⟩ := fence.closesFence_iff.mp closes
  have long := fence.wide
  refine Bool.eq_false_iff.mpr fun blank => ?_
  have inside : mark ∈ front ++ (List.replicate count mark ++ back) :=
    List.mem_append_right _ (List.mem_append_left _ (List.mem_replicate.mpr ⟨by omega, rfl⟩))
  exact absurd (List.all_eq_true.mp blank mark inside) (Bool.eq_false_iff.mp fence.shown)

/-- A blank line behind which there is no fence does not stand in code. -/
theorem leavesBlank_of_scanLine (known : Known fence) (unfenced : scanLine fence line = none)
    (blank : allBlank line = true)
    : leavesBlank fence line = true := by
  cases fence with
  | none =>
      rw [leavesBlank, show fence? line = none from unfenced, blank]
      rfl
  | some run =>
      obtain ⟨mark, fence⟩ := known run rfl
      have closes : closesFence run line = true := by
        rw [scanLine] at unfenced
        split at unfenced
        next closes => exact closes
        next => cases unfenced
      rw [fence.allBlank_eq_false closes] at blank
      cases blank

/-- The last line of a region with lines behind it is not blank: it closes the region. -/
theorem allBlank_eq_false_of_region {last : List Char}
    (ends : (line :: rest)[regionLength (line :: rest) - 1]? = some last)
    (more : rest.drop (regionLength (line :: rest) - 1) ≠ [])
    : allBlank last = false := by
  rcases regionLength_cases (line :: rest) with
    ⟨front, other, behind, cut, closes, length⟩ | ⟨length, _⟩
  · rw [length, cut] at ends
    obtain rfl : other = last := by simpa using ends
    refine Bool.eq_false_iff.mpr fun blank => ?_
    have none_left := trimEnd_append_of_allBlank [] blank
    rw [List.nil_append, closes.1] at none_left
    exact absurd none_left (by decide)
  · rw [length] at more
    simp at more

/-- Where the scan has no fence, lines with the opener behind a blank line start regions unless they
are in one, by induction on the lines. The line before the first one is given, and what the scan
knows of it.
-/
theorem role_eq_first {role : Role} (start : List Char) {text : List Char} (known : Known fence)
    (edge
      : ∀ last, (start :: found)[skip]? = some last → found.drop skip ≠ [] → fence = none →
          allBlank last = true → afterBlank = true)
    (there : label fence afterBlank skip found = before ++ (role, opener ++ text) :: after)
    (blank : allBlank (lineBefore start before) = true) (outer : role ≠ .inner)
    (outside : fenceBehind fence before = none)
    : role = .first := by
  induction found generalizing fence afterBlank skip start before with
  | nil => cases skip <;> simp [label] at there
  | cons head rest ih =>
      obtain ⟨given, next, left, step, whole⟩ := exists_step fence afterBlank skip head rest
      rw [whole] at there
      cases before with
      | nil =>
          obtain ⟨rfl, rfl⟩ := Prod.mk.inj (List.cons.inj there).1
          cases step with
          | first => rfl
          | inner => exact absurd rfl outer
          | text passes =>
              refine absurd ⟨outside, fence?_opener_append text, ?_, ?_⟩ passes
              · exact edge start rfl (List.cons_ne_nil _ _) outside blank
              · rw [strip?_eq_some_iff.mpr rfl]
                rfl
      | cons _ before =>
          obtain ⟨rfl, behind⟩ := List.cons.inj there
          refine ih head (known.scanOn _) ?_ behind ?_ outside
          · intro last ends more unfenced blankLast
            cases step with
            | inner => exact edge last ends more unfenced blankLast
            | first =>
                rw [allBlank_eq_false_of_region ends more] at blankLast
                cases blankLast
            | text =>
                obtain rfl : head = last := Option.some.inj ends
                exact leavesBlank_of_scanLine known unfenced blankLast
          · rw [lineBefore, List.getLast?_cons] at blank
            rw [lineBefore]
            cases last : before.getLast? <;> simpa [last] using blank

end

-----------------------------------------------------------------------------------------
-- Regions and code
-----------------------------------------------------------------------------------------

/-- A region of three lines. -/
def smallRegion : List Char := "\\begin\x7blatex\x7d[a]\nx\n\\end\x7blatex\x7d\n".toList

/-- No region starts inside fenced code if and only if the scan is not astray at the start of any.
-/
theorem regionsOutsideCode_iff (body : List Char)
    : RegionsOutsideCode body
      ↔ ∀ before line after,
          markedLines body = before ++ (.first, line) :: after → ¬ Astray before := by
  have starts {before after : List (Role × List Char)} {line : List Char}
      (there : markedLines body = before ++ (.first, line) :: after)
      : codeBehind none before = none ↔ ¬ Astray before := by
    rw [markedLines_eq] at there
    rw [astray_iff, fenceBehind_eq_none there, Decidable.not_not, eq_comm]
  constructor
  · intro outside before line after there
    exact (starts there).mp (outside before line after there)
  · intro ordered before line after there
    exact (starts there).mpr (ordered before line after there)

/-- Marks that are indented too far to close code close it for the scan. -/
theorem not_forall_regionsOutsideCode : ¬ ∀ body, RegionsOutsideCode body := by
  intro outside
  let body := "```\n    ```\n\n".toList ++ (smallRegion ++ "\n```\n".toList)
  have none := outside body ((markedLines body).take 3) "\\begin\x7blatex\x7d[a]\n".toList
    ((markedLines body).drop 4) (by decide +kernel)
  exact absurd none (by decide +kernel)

/-- Every line that is to start a region does if and only if the scan is not astray at any of them.
-/
theorem regionsFound_iff (body : List Char)
    : RegionsFound body ↔ ∀ before role, Opens body before role → ¬ Astray before := by
  have starts {before : List (Role × List Char)} {role : Role} (opens : Opens body before role)
      : role = .first ↔ ¬ Astray before := by
    obtain ⟨⟨text, after, there⟩, blank, outer, outside⟩ := opens
    rw [markedLines_eq] at there
    rw [astray_iff, outside, Decidable.not_not]
    constructor
    · rintro rfl
      exact fenceBehind_eq_none there
    · intro unfenced
      exact role_eq_first [] known_none (fun _ _ _ _ _ => rfl) there blank outer unfenced
  constructor
  · intro found before role opens
    exact (starts opens).mp (found before role opens)
  · intro ordered before role opens
    exact (starts opens).mpr (ordered before role opens)

/-- A code span that begins a line is a fence for the scan, and the region behind it is text. -/
theorem not_forall_regionsFound : ¬ ∀ body, RegionsFound body := by
  intro found
  let body := "```code``` is a span\n\n".toList ++ smallRegion
  have first := found body ((markedLines body).take 2) .text
    ⟨⟨"a]\n".toList, (markedLines body).drop 3, by decide +kernel⟩, by decide +kernel, by decide,
      by decide +kernel⟩
  exact absurd first (by decide)

end Publication.Latex
