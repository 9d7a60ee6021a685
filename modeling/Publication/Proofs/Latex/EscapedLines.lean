import Publication.Latex.Reference
import Publication.Proofs.Markdown.Unclosed
import Publication.Proofs.Text.Lines

/-! The lines of escaped text with a bracket behind it. Escaping breaks no line and joins none, so
that they are blank where those of the text itself are.
-/

namespace Publication.Latex

open Publication.Text Publication.Markdown
open Publication.Markdown.Token (Escaped)

-----------------------------------------------------------------------------------------
-- Escaped text
-----------------------------------------------------------------------------------------

theorem escapeChars_append (s t : List Char)
    : escapeChars (s ++ t) = escapeChars s ++ escapeChars t := by
  induction s with
  | nil => rfl
  | cons c s ih =>
      rw [List.cons_append, escapeChars, escapeChars, ih]
      split <;> rfl

theorem escapeChars_singleton (c : Char)
    : escapeChars [c] = if isAsciiPunctuation c then ['\\', c] else [c] := rfl

theorem escaped_escapeChars (s : List Char) : Escaped (escapeChars s) := by
  induction s with
  | nil => exact .nil
  | cons c s ih =>
      rw [escapeChars]
      split
      next sign => exact .mark sign ih
      next letter => exact .plain (Bool.eq_false_iff.mpr letter) ih

/-- No mark is blank, and none is made so. -/
theorem isBlankRest_escapeChars (c : Char) : isBlankRest (escapeChars [c]) = isInlineBlank c := by
  rw [escapeChars_singleton]
  split
  next sign =>
      have shown : isInlineBlank c = false := by
        simp only [isInlineBlank, Bool.or_eq_false_iff, beq_eq_false_iff_ne]
        refine ⟨⟨⟨?_, ?_⟩, ?_⟩, ?_⟩
        all_goals
          rintro rfl
          cases sign
      rw [shown]
      rfl
  next => exact Bool.and_true _

/-- The blanks of a line and the breaks between lines are blanks. -/
theorem shown_of_not_blank {c : Char} (shown : isBlank c = false)
    : isInlineBlank c = false ∧ isBreak c = false := by
  simp only [isInlineBlank, isBreak, Bool.or_eq_false_iff, beq_eq_false_iff_ne]
  refine ⟨⟨⟨⟨?_, ?_⟩, ?_⟩, ?_⟩, ?_, ?_⟩
  all_goals
    rintro rfl
    cases shown

-----------------------------------------------------------------------------------------
-- Lines of escaped text
-----------------------------------------------------------------------------------------

/-- No line is blank. -/
def Unbroken (lines : List Line) : Prop := ∀ line ∈ lines, isBlankRest line.text = false

instance (lines : List Line) : Decidable (Unbroken lines) :=
  inferInstanceAs (Decidable (∀ line ∈ lines, isBlankRest line.text = false))

theorem unbroken_cons_iff {line : Line} {rest : List Line}
    : Unbroken (line :: rest) ↔ isBlankRest line.text = false ∧ Unbroken rest :=
  List.forall_mem_cons

/-- Text that does not end in a blank. -/
def EndsShown (s : List Char) : Prop := ∀ c ∈ s.getLast?, isBlank c = false

/-- What may follow in a line: it breaks no line, and opens no bracket. -/
def Trails (t : List Char) : Prop := ∀ c ∈ t, isBreak c = false ∧ c ≠ '['

theorem trails_nil : Trails [] := List.forall_mem_nil _

/-- How escaped text is cut into lines where a bracket and more of a line follow it: the first line
is `line`, behind what it began with, and the others are `rest`.
-/
structure Cut (behind read s : List Char) (line : Line) (rest : List Line) : Prop where
  lines
    : ∀ front,
        Line.split front (escapeChars s ++ ']' :: (behind ++ ['\n']))
        = ⟨front.reverse ++ line.text, line.ending⟩ :: rest
  joined : Reader.joinLines (line :: rest) = escapeChars s ++ ']' :: behind
  tame : ∀ other ∈ line :: rest, Tame other.text
  escaped : ∀ other ∈ (line :: rest).dropLast, Escaped other.text ∧ Escaped other.ending
  /-- A line is blank where it is in the text, the first one with what was read before it. -/
  unbroken_iff
    : EndsShown (read.reverse ++ s)
      → (Unbroken (Line.split read s)
        ↔ (isBlankRest read && isBlankRest line.text) = false ∧ Unbroken rest)

section

variable {behind read s : List Char} {line : Line} {rest : List Line}

/-- Characters that break no line are read one by one, by induction on them. -/
theorem split_append (whole : ∀ c ∈ behind, isBreak c = false) (read t : List Char)
    : Line.split read (behind ++ t) = Line.split (behind.reverse ++ read) t := by
  induction behind generalizing read with
  | nil => rfl
  | cons c behind ih =>
      have inLine := whole c List.mem_cons_self
      simp only [isBreak, Bool.or_eq_false_iff, beq_eq_false_iff_ne] at inLine
      rw [List.cons_append, Line.split]
      · rw [ih fun d member => whole d (List.mem_cons_of_mem _ member), List.reverse_cons,
          List.append_assoc]
        rfl
      · exact fun _ same _ => inLine.2 same
      · exact inLine.2
      · exact inLine.1

/-- At the end of the text there is the bracket. -/
theorem cut_nil (trails : Trails behind) (read : List Char)
    : Cut behind read [] ⟨']' :: behind, ['\n']⟩ [] where
  lines := by
    intro front
    have inLine : ∀ c ∈ ']' :: behind, isBreak c = false :=
      List.forall_mem_cons.mpr ⟨rfl, fun c member => (trails c member).1⟩
    change Line.split front ((']' :: behind) ++ ['\n']) = _
    rw [split_append inLine]
    simp [Line.split]
  joined := rfl
  tame := fun _ member =>
    List.mem_singleton.mp member ▸ .close fun bracket => (trails _ bracket).2 rfl
  escaped := List.forall_mem_nil _
  unbroken_iff := by
    intro ends
    have last : Unbroken (Line.split read []) := by
      cases read with
      | nil => exact List.forall_mem_nil _
      | cons c read =>
          have shown := (shown_of_not_blank (ends c (by simp))).1
          simp [Line.split, Unbroken, isBlankRest, shown]
    exact iff_of_true last ⟨Bool.and_false _, List.forall_mem_nil _⟩

/-- A break ends the first line, in the text as in the escaped text. -/
theorem Cut.break {breaks : List Char} (cut : Cut behind [] s line rest)
    (kept : escapeChars breaks = breaks)
    (ends : Line.split read (breaks ++ s) = ⟨read.reverse, breaks⟩ :: Line.split [] s)
    (endsEscaped
      : ∀ front,
          Line.split front (breaks ++ (escapeChars s ++ ']' :: (behind ++ ['\n'])))
          = ⟨front.reverse, breaks⟩
            :: Line.split [] (escapeChars s ++ ']' :: (behind ++ ['\n'])))
    : Cut behind read (breaks ++ s) ⟨[], breaks⟩ (line :: rest) where
  lines := by
    intro front
    rw [escapeChars_append, kept, List.append_assoc, endsEscaped, cut.lines, List.append_nil]
    rfl
  joined := by
    rw [escapeChars_append, kept, List.append_assoc, ← cut.joined]
    rfl
  tame := List.forall_mem_cons.mpr ⟨.nil, cut.tame⟩
  escaped := List.forall_mem_cons.mpr ⟨⟨.nil, kept ▸ escaped_escapeChars breaks⟩, cut.escaped⟩
  unbroken_iff := by
    intro shown
    have behind : EndsShown ([].reverse ++ s) := by
      intro c member
      refine shown c ?_
      simp only [List.reverse_nil, List.nil_append] at member
      simp [List.getLast?_append, Option.mem_def.mp member]
    rw [ends, unbroken_cons_iff, cut.unbroken_iff behind, unbroken_cons_iff]
    simp [isBlankRest]

/-- A character that breaks no line is escaped in it. -/
theorem Cut.cons {c : Char} (inLine : isBreak c = false) (cut : Cut behind (c :: read) s line rest)
    : Cut behind read (c :: s) ⟨escapeChars [c] ++ line.text, line.ending⟩ rest := by
  have first : escapeChars (c :: s) = escapeChars [c] ++ escapeChars s := escapeChars_append [c] s
  have whole : ∀ d ∈ escapeChars [c], isBreak d = false := by
    rw [escapeChars_singleton]
    split
    · simpa using ⟨rfl, inLine⟩
    · simpa using inLine
  have goes : Line.split read (c :: s) = Line.split (c :: read) s :=
    @split_append [c] (by simpa using inLine) read s
  obtain ⟨own, others⟩ := List.forall_mem_cons.mp cut.tame
  refine ⟨fun front => ?_, ?_, ?_, ?_, fun shown => ?_⟩
  · rw [first, List.append_assoc, split_append whole, cut.lines]
    simp
  · rw [Reader.joinLines_append, cut.joined, first, List.append_assoc]
  · exact List.forall_mem_cons.mpr ⟨(escaped_escapeChars [c]).tame_append own, others⟩
  · have escaped := cut.escaped
    cases rest with
    | nil => exact escaped
    | cons next rest =>
        obtain ⟨⟨text, ending⟩, others⟩ := List.forall_mem_cons.mp escaped
        exact List.forall_mem_cons.mpr ⟨⟨(escaped_escapeChars [c]).append text, ending⟩, others⟩
  · have whole : (c :: read).reverse ++ s = read.reverse ++ c :: s := by simp
    rw [goes, cut.unbroken_iff (whole ▸ shown)]
    have blank : (isBlankRest (c :: read) && isBlankRest line.text)
        = (isBlankRest read && isBlankRest (escapeChars [c] ++ line.text)) := by
      rw [isBlankRest, isBlankRest, isBlankRest, isBlankRest, List.all_append, List.all_cons,
        ← isBlankRest_escapeChars c, isBlankRest, Bool.and_left_comm, Bool.and_assoc]
    rw [blank]

/-- Escaped text is cut where the text is, by induction on it. -/
theorem exists_cut (trails : Trails behind) (read s : List Char)
    : ∃ line rest, Cut behind read s line rest := by
  fun_induction Line.split read s with
  | case1 read => exact ⟨_, _, cut_nil trails read⟩
  | case2 read => exact ⟨_, _, cut_nil trails read⟩
  | case3 read s ih =>
      obtain ⟨line, rest, cut⟩ := ih
      exact ⟨_, _, @Cut.break _ _ _ _ _ ['\r', '\n'] cut rfl rfl fun _ => rfl⟩
  | case4 read s apart ih =>
      obtain ⟨line, rest, cut⟩ := ih
      have ends (front t : List Char) (apart : ∀ t', t = '\n' :: t' → False)
          : Line.split front ('\r' :: t) = ⟨front.reverse, ['\r']⟩ :: Line.split [] t := by
        rw [Line.split]
        exact apart
      have apartEscaped
          : ∀ t', escapeChars s ++ ']' :: (behind ++ ['\n']) = '\n' :: t' → False := by
        cases s with
        | nil => nofun
        | cons c s =>
            intro t' same
            simp only [escapeChars] at same
            split at same
            · cases same
            · obtain ⟨rfl, _⟩ := List.cons.inj same
              exact apart _ rfl
      exact ⟨_, _, @Cut.break _ _ _ _ _ ['\r'] cut rfl (ends read s apart)
        fun front => ends front _ apartEscaped⟩
  | case5 read s ih =>
      obtain ⟨line, rest, cut⟩ := ih
      exact ⟨_, _, @Cut.break _ _ _ _ _ ['\n'] cut rfl rfl fun _ => rfl⟩
  | case6 read c s pair carriage feed ih =>
      obtain ⟨line, rest, cut⟩ := ih
      exact ⟨_, _, cut.cons (by simpa [isBreak] using ⟨feed, carriage⟩)⟩

/-- Text without blanks at either end has a blank line where a line of it behind the first is blank
with the bracket behind it.
-/
theorem exists_cut_of_trimmed (trails : Trails behind) (trimmed : Trimmed s)
    : ∃ line rest, Cut behind [] s line rest ∧ (Unbroken (Line.ofText s) ↔ Unbroken rest) := by
  cases s with
  | nil =>
      refine ⟨_, _, cut_nil trails [], ?_⟩
      exact iff_of_true (List.forall_mem_nil _) (List.forall_mem_nil _)
  | cons c s =>
      obtain ⟨shown, inLine⟩ := shown_of_not_blank (trimmed.start c rfl)
      obtain ⟨line, rest, cut⟩ := exists_cut trails [c] s
      refine ⟨_, _, cut.cons inLine, ?_⟩
      have goes : Line.ofText (c :: s) = Line.split [c] s :=
        @split_append [c] (by simpa using inLine) [] s
      rw [goes, cut.unbroken_iff trimmed.last]
      simp [isBlankRest, shown]

/-- Escaped text behind a mark is cut where it is cut alone. -/
theorem Cut.ofText {mark : List Char} (cut : Cut behind [] s line rest)
    (inLine : ∀ c ∈ mark, isBreak c = false)
    : Line.ofText (mark ++ (escapeChars s ++ ']' :: (behind ++ ['\n'])))
      = ⟨mark ++ line.text, line.ending⟩ :: rest := by
  rw [Line.ofText, split_append inLine, cut.lines]
  simp

/-- No image begins in the lines behind the first one. -/
theorem Cut.still (cut : Cut behind read s line rest) (trails : Trails behind) : Still rest where
  tame := (List.forall_mem_cons.mp cut.tame).2
  markless := by
    have whole : Tame (escapeChars s ++ ']' :: behind) :=
      (escaped_escapeChars s).tame_append (.close fun bracket => (trails _ bracket).2 rfl)
    intro found
    refine whole.markless (found.trans ?_)
    rw [← cut.joined]
    exact ((Reader.joinLines_suffix line rest).trans (List.suffix_cons _ _)).isInfix

end

/-- Text of one line without blanks at either end has no blank line. -/
theorem unbroken_of_trimmed {s : List Char} (trimmed : Trimmed s)
    (whole : ∀ c ∈ s, isBreak c = false)
    : Unbroken (Line.ofText s) := by
  have only := split_append whole [] []
  rw [List.append_nil, List.append_nil] at only
  rw [Line.ofText, only]
  cases s with
  | nil => exact List.forall_mem_nil _
  | cons c s =>
      have shown := (shown_of_not_blank (trimmed.start c rfl)).1
      simp [Line.split, Unbroken, isBlankRest, shown]

end Publication.Latex
