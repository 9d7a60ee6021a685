import Publication.Markdown.Parser
import Publication.Proofs.Markdown.Imageless
import Publication.Proofs.Markdown.Tokens

/-! Paragraphs of escaped text. No line of it begins a block of its own or breaks off the paragraph
above it, unless it is blank; so a text without blank lines is one paragraph, and what is behind a
blank line is another one or code.
-/

namespace Publication.Markdown

open Publication.Text
open Publication.Markdown.Token (Escaped)

-----------------------------------------------------------------------------------------
-- Tame text
-----------------------------------------------------------------------------------------

/-- Text that is escaped up to its end, or up to a bracket behind which none opens. -/
inductive Tame : List Char → Prop
  | nil : Tame []
  | plain {c : Char} {s : List Char} (letter : isAsciiPunctuation c = false) (rest : Tame s)
      : Tame (c :: s)
  | mark {c : Char} {s : List Char} (sign : isAsciiPunctuation c = true) (rest : Tame s)
      : Tame ('\\' :: c :: s)
  | close {s : List Char} (shut : '[' ∉ s) : Tame (']' :: s)

/-- Tame text is as tame behind escaped text. -/
theorem Token.Escaped.tame_append {s t : List Char} (escaped : Escaped s) (tame : Tame t)
    : Tame (s ++ t) := by
  induction escaped with
  | nil => exact tame
  | plain letter _ ih => exact .plain letter ih
  | mark sign _ ih => exact .mark sign ih

/-- A character that tame text may begin with. -/
def StartsTame (c : Char) : Prop := isAsciiPunctuation c = false ∨ c = '\\' ∨ c = ']'

theorem Tame.head {c : Char} {s : List Char} (tame : Tame (c :: s)) : StartsTame c := by
  cases tame with
  | plain letter => exact .inl letter
  | mark => exact .inr (.inl rfl)
  | close => exact .inr (.inr rfl)

/-- The marks that blocks begin with, or that end the number of an item. -/
def blockMarks : List Char :=
  ['=', '-', '+', '*', '_', '#', '\x60', '~', '>', '<', ':', '[', '|', '.', ')']

theorem StartsTame.not_mem {c : Char} (starts : StartsTame c) : c ∉ blockMarks := by
  intro mark
  have marks : (blockMarks.all fun d => isAsciiPunctuation d && d != '\\' && d != ']') = true := by
    decide
  have own := List.all_eq_true.mp marks c mark
  simp only [Bool.and_eq_true, bne_iff_ne] at own
  obtain ⟨⟨sign, slash⟩, bracket⟩ := own
  rcases starts with letter | rfl | rfl
  · rw [sign] at letter
    cases letter
  · exact slash rfl
  · exact bracket rfl

/-- Tame text is tame behind characters that are no marks, by induction on it. -/
theorem Tame.dropWhile {test : Char → Bool}
    (letters : ∀ c, test c = true → isAsciiPunctuation c = false) {s : List Char} (tame : Tame s)
    : Tame (s.dropWhile test) := by
  have stays {c : Char} {s : List Char} (mark : isAsciiPunctuation c = true)
      : (c :: s).dropWhile test = c :: s := by
    rw [List.dropWhile_cons, if_neg]
    intro holds
    rw [letters c holds] at mark
    cases mark
  induction tame with
  | nil => exact .nil
  | @plain c s letter rest ih =>
      rw [List.dropWhile_cons]
      split
      · exact ih
      · exact .plain letter rest
  | mark sign rest =>
      rw [stays (by decide)]
      exact .mark sign rest
  | close shut =>
      rw [stays (by decide)]
      exact .close shut

/-- No image begins in tame text, by induction on it, even behind an exclamation mark. -/
theorem Tame.markless {s : List Char} (tame : Tame s) : Markless ('!' :: s) := by
  have starts {s : List Char} (tame : Tame s) : ¬ ['['] <+: s := by
    rintro ⟨rest, rfl⟩
    exact tame.head.not_mem (by simp [blockMarks])
  have inside : ¬ ['!', '['] <:+: s := by
    induction tame with
    | nil => exact fun found => by cases List.infix_nil.mp found
    | plain letter rest ih =>
        intro found
        rcases List.infix_cons_iff.mp found with first | later
        · obtain ⟨rfl, _⟩ := List.cons_prefix_cons.mp first
          cases letter
        · exact ih later
    | mark sign rest ih =>
        intro found
        rcases List.infix_cons_iff.mp found with first | later
        · cases (List.cons_prefix_cons.mp first).1
        · rcases List.infix_cons_iff.mp later with second | last
          · exact starts rest (List.cons_prefix_cons.mp second).2
          · exact ih last
    | close shut =>
        intro found
        rcases List.infix_cons_iff.mp found with first | later
        · cases (List.cons_prefix_cons.mp first).1
        · exact shut (later.subset (List.mem_cons_of_mem _ List.mem_cons_self))
  intro found
  rcases List.infix_cons_iff.mp found with first | later
  · exact starts tame (List.cons_prefix_cons.mp first).2
  · exact inside later

-----------------------------------------------------------------------------------------
-- Lines that go on with a paragraph
-----------------------------------------------------------------------------------------

theorem dropWhile_of_space?_eq_none {at_ : Cursor} (none_left : at_.space? = none)
    : at_.rest.dropWhile isSpace = at_.rest := by
  obtain ⟨rest, column, owed⟩ := at_
  cases owed with
  | succ owed => cases none_left
  | zero =>
      cases rest with
      | nil => rfl
      | cons c rest =>
          by_cases space : isSpace c = true
          · simp only [isSpace, Bool.or_eq_true, beq_iff_eq] at space
            rcases space with rfl | rfl <;> cases none_left
          · rw [List.dropWhile_cons, if_neg space]

theorem rest_of_space?_eq_some {at_ next : Cursor} (taken : at_.space? = some next)
    : isBlankRest next.rest = isBlankRest at_.rest
      ∧ next.rest.dropWhile isSpace = at_.rest.dropWhile isSpace := by
  simp only [Cursor.space?] at taken
  split at taken
  · cases taken
    exact ⟨rfl, rfl⟩
  next rest _ whole =>
      cases taken
      rw [whole]
      exact ⟨rfl, rfl⟩
  next rest _ whole =>
      cases taken
      rw [whole]
      exact ⟨rfl, rfl⟩
  · cases taken

/-- Taking columns of space takes spaces: fewer than asked for are all there are. -/
theorem rest_spaces (n : Nat) (at_ : Cursor)
    : isBlankRest (at_.spaces n).2.rest = isBlankRest at_.rest
      ∧ ((at_.spaces n).1 < n → (at_.spaces n).2.rest = at_.rest.dropWhile isSpace) := by
  induction n generalizing at_ with
  | zero => exact ⟨rfl, fun less => absurd less (Nat.lt_irrefl 0)⟩
  | succ n ih =>
      rw [Cursor.spaces]
      cases taken : at_.space? with
      | none => exact ⟨rfl, fun _ => (dropWhile_of_space?_eq_none taken).symm⟩
      | some next =>
          obtain ⟨blank, fewer⟩ := ih next
          obtain ⟨same, spaces⟩ := rest_of_space?_eq_some taken
          exact ⟨blank.trans same, fun less => (fewer (Nat.lt_of_succ_lt_succ less)).trans spaces⟩

theorem spaces_le (n : Nat) (at_ : Cursor) : (at_.spaces n).1 ≤ n := by
  induction n generalizing at_ with
  | zero => exact Nat.le_refl 0
  | succ n ih =>
      rw [Cursor.spaces]
      cases at_.space? with
      | none => exact Nat.zero_le _
      | some next => exact Nat.succ_le_succ (ih next)

section

variable {s : List Char} {line : Line}

theorem Tame.dropSpaces (tame : Tame s) : Tame (s.dropWhile isSpace) := by
  refine tame.dropWhile fun c space => ?_
  simp only [isSpace, Bool.or_eq_true, beq_iff_eq] at space
  rcases space with rfl | rfl <;> rfl

theorem isSpace_of_dropWhile {c : Char} {rest : List Char}
    (start : s.dropWhile isSpace = c :: rest)
    : isSpace c = false := by
  have head := List.head?_dropWhile_not isSpace s
  rw [start] at head
  simpa using head

/-- Text that is not blank goes on behind its spaces, by induction on it. -/
theorem exists_start (filled : isBlankRest s = false)
    : ∃ c rest, s.dropWhile isSpace = c :: rest := by
  induction s with
  | nil => cases filled
  | cons c s ih =>
      by_cases space : isSpace c = true
      · have blank : isInlineBlank c = true := by
          simp only [isSpace, Bool.or_eq_true, beq_iff_eq] at space
          rcases space with rfl | rfl <;> rfl
        simp only [isBlankRest, List.all_cons, blank, Bool.true_and] at filled
        rw [List.dropWhile_cons, if_pos space]
        exact ih filled
      · exact ⟨c, s, List.dropWhile_cons_of_neg space⟩

/-- A digit is no mark. -/
theorem isAsciiPunctuation_of_isDigit {c : Char} (digit : c.isDigit = true)
    : isAsciiPunctuation c = false := by
  simp only [Char.isDigit, Bool.and_eq_true, decide_eq_true_eq] at digit
  have least : 48 ≤ c.toNat := digit.1
  have most : c.toNat ≤ 57 := digit.2
  simp only [isAsciiPunctuation, Bool.or_eq_false_iff, Bool.and_eq_false_iff,
    decide_eq_false_iff_not]
  omega

theorem getElem?_length_takeWhile (test : Char → Bool) (s : List Char)
    : s[(s.takeWhile test).length]? = (s.dropWhile test).head? := by
  induction s with
  | nil => rfl
  | cons c s ih =>
      rw [List.takeWhile_cons, List.dropWhile_cons]
      split
      · exact ih
      · rfl

/-- No list item begins in tame text: a period behind a number is escaped. -/
theorem Tame.itemMark?_eq_none {c : Char} (tame : Tame (c :: s))
    : Marker.itemMark? (c :: s) = none := by
  have starts := tame.head.not_mem
  simp only [blockMarks, List.mem_cons, List.not_mem_nil, or_false, not_or] at starts
  have bullet : Marker.isBullet c = false := by simp [Marker.isBullet, starts]
  have behind := tame.dropWhile fun _ => isAsciiPunctuation_of_isDigit
  simp only [Marker.itemMark?, bullet, Bool.false_eq_true, if_false]
  split
  next d found =>
      have ends : d ∉ blockMarks := by
        rw [getElem?_length_takeWhile] at found
        obtain ⟨rest, left⟩ := List.head?_eq_some_iff.mp found
        rw [left] at behind
        exact behind.head.not_mem
      simp only [blockMarks, List.mem_cons, List.not_mem_nil, or_false, not_or] at ends
      simp [ends]
  next => rfl

end

-----------------------------------------------------------------------------------------
-- Text that begins no block of its own
-----------------------------------------------------------------------------------------

/-- Text, behind the spaces of its line, with which nothing but a paragraph begins. -/
structure Inert (s : List Char) : Prop where
  shown : isBlankRest s = false
  start : s.head? ≠ some '<' ∧ s.head? ≠ some '>' ∧ s.head? ≠ some ':'
  rule : Marker.isRule s = false
  heading : Marker.headingLevel? s = none
  fence : Marker.fence? s = none
  item : Marker.itemMark? s = none
  footnote : footnoteMark? s = none
  definition : ∀ r line rest, Reader.definition? r s line rest = none

section

variable {c : Char} {s : List Char} {line : Line}

theorem StartsTame.ne_bracket (starts : StartsTame c) : c ≠ '[' := by
  rintro rfl
  exact starts.not_mem (by simp [blockMarks])

theorem StartsTame.footnoteMark?_eq_none (starts : StartsTame c) (s : List Char)
    : footnoteMark? (c :: s) = none := by
  simp only [footnoteMark?]
  split
  next same => exact absurd (List.cons.inj same).1 starts.ne_bracket
  next => rfl

theorem Tame.inert (tame : Tame (c :: s)) (shown : isBlankRest (c :: s) = false)
    : Inert (c :: s) := by
  have starts := tame.head.not_mem
  simp only [blockMarks, List.mem_cons, List.not_mem_nil, or_false, not_or] at starts
  exact {
    shown := shown
    start := by simp [starts]
    rule := by simp [Marker.isRule, starts]
    heading := by simp [Marker.headingLevel?, countWhile, starts]
    fence := by simp [Marker.fence?, starts]
    item := tame.itemMark?_eq_none
    footnote := tame.head.footnoteMark?_eq_none s
    definition := by
      intro r line rest
      simp only [Reader.definition?]
      split
      next same => exact absurd (List.cons.inj same).1 tame.head.ne_bracket
      next => rfl }

/-- A text that begins with an image, or with a link around one. -/
def BeginsImage (s : List Char) : Prop := ∃ rest, s = '!' :: rest ∨ s = '[' :: '!' :: '[' :: rest

theorem BeginsImage.exists_cons (begins : BeginsImage s)
    : ∃ c more, s = c :: more ∧ (c = '!' ∨ c = '[') := by
  obtain ⟨more, is | is⟩ := begins
  · exact ⟨_, _, is, .inl rfl⟩
  · exact ⟨_, _, is, .inr rfl⟩

/-- No label holds an opening bracket, so that no link definition begins with an image. -/
theorem BeginsImage.definition?_eq_none (begins : BeginsImage s) (r : Reader) (line : Line)
    (rest : List Line)
    : r.definition? s line rest = none := by
  obtain ⟨more, rfl | rfl⟩ := begins
  · rfl
  · have nested (room : Nat) (left : List Char)
        : Link.labelFrom true (room + 2) [] ('!' :: '[' :: left) = none := by
      have stops : Link.labelFrom true (room + 1) ['!'] ('[' :: left) = none := by
        rw [Link.labelFrom.eq_def]
        simp
      simp [Link.labelFrom, isAsciiBlank, stops]
    have unread (lines : List Line)
        : Link.definition? (Reader.joinFeeds (⟨'!' :: '[' :: more, line.ending⟩ :: lines))
          = none := by
      obtain ⟨left, joined⟩ : ∃ left,
          Reader.joinFeeds (⟨'!' :: '[' :: more, line.ending⟩ :: lines) = '!' :: '[' :: left := by
        cases lines <;> exact ⟨_, rfl⟩
      rw [joined, Link.definition?, Link.label?, nested 998]
      rfl
    simp only [Reader.definition?, unread, Option.map_none]

theorem BeginsImage.inert (begins : BeginsImage s) : Inert s := by
  obtain ⟨c, more, rfl, starts⟩ := begins.exists_cons
  exact {
    shown := by rcases starts with rfl | rfl <;> simp [isBlankRest, isInlineBlank]
    start := by rcases starts with rfl | rfl <;> simp
    rule := by rcases starts with rfl | rfl <;> simp [Marker.isRule]
    heading := by rcases starts with rfl | rfl <;> simp [Marker.headingLevel?, countWhile]
    fence := by rcases starts with rfl | rfl <;> simp [Marker.fence?]
    item := by rcases starts with rfl | rfl <;> simp [Marker.itemMark?, Marker.isBullet]
    footnote := by
      obtain ⟨more, is | is⟩ := begins <;> rw [is] <;> rfl
    definition := begins.definition?_eq_none }

-----------------------------------------------------------------------------------------
-- Lines below a paragraph
-----------------------------------------------------------------------------------------

theorem Inert.breaksOff_eq_false (inert : Inert s) : breaksOff ⟨true, true, false⟩ s = false := by
  obtain ⟨html, quote, details⟩ := inert.start
  cases s with
  | nil => cases inert.shown
  | cons c s =>
      simp only [List.head?_cons, ne_eq, Option.some.injEq] at html quote details
      simp [breaksOff, inert.shown, inert.rule, inert.heading, inert.fence, inert.footnote, html,
        quote, details, Marker.itemInterrupts, inert.item]

theorem Tame.delimiterRow?_eq_none (tame : Tame line.text)
    : Marker.delimiterRow? (Cursor.start line) = none := by
  have fewer := (rest_spaces 4 (Cursor.start line)).2
  simp only [Marker.delimiterRow?]
  split
  · rfl
  next few =>
      simp only [Bool.or_eq_true, decide_eq_true_eq, not_or] at few
      have left : ((Cursor.start line).spaces 4).2.rest = line.text.dropWhile isSpace :=
        fewer (by omega)
      rw [left] at few
      cases start : line.text.dropWhile isSpace with
      | nil => exact absurd (congrArg List.isEmpty start) few.2
      | cons c rest =>
          have starts := (start ▸ tame.dropSpaces).head.not_mem
          simp only [blockMarks, List.mem_cons, List.not_mem_nil, or_false, not_or] at starts
          have blank : c ≠ ' ' := by
            rintro rfl
            cases isSpace_of_dropWhile start
          have stuck : Marker.Columns.step { pipe := false } c = none := by
            simp [Marker.Columns.step, starts, blank]
          simp only [left, start]
          split
          next same => exact absurd (List.cons.inj same).1 (by simp [starts])
          next => simp [List.foldlM_cons, stuck]

/-- Tame text goes on with a paragraph, unless it is blank. -/
theorem Tame.continuation_eq (tame : Tame line.text) (next : Option Line)
    : continuation [] true line next
      = if isBlankRest line.text then .ends else .text line.text := by
  obtain ⟨blank, fewer⟩ := rest_spaces 4 (Cursor.start line)
  have own : (Cursor.start line).rest = line.text := rfl
  have here : (inside [] line).cursor = Cursor.start line := rfl
  have whole : (inside [] line).whole = true := rfl
  rw [own] at blank fewer
  simp only [continuation, here, whole, if_true]
  split
  next few =>
      have left := fewer few
      have plain : Marker.underline? (line.text.dropWhile isSpace) = none := by
        cases start : line.text.dropWhile isSpace with
        | nil => rfl
        | cons c rest =>
            have starts := (start ▸ tame.dropSpaces).head.not_mem
            simp only [blockMarks, List.mem_cons, List.not_mem_nil, or_false, not_or] at starts
            simp [Marker.underline?, starts]
      rw [left] at blank
      cases shown : isBlankRest line.text with
      | true => simp [left, plain, breaksOff, blank.trans shown]
      | false =>
          obtain ⟨c, rest, start⟩ := exists_start shown
          rw [start] at left plain blank
          have behind := start ▸ tame.dropSpaces
          have inert := behind.inert (blank.trans shown)
          have starts := behind.head.not_mem
          simp only [blockMarks, List.mem_cons, List.not_mem_nil, or_false, not_or] at starts
          simp [left, plain, inert.breaksOff_eq_false, starts, own]
  next => rw [blank, own]

end

-----------------------------------------------------------------------------------------
-- Reading paragraphs
-----------------------------------------------------------------------------------------

/-- A line that is not blank. -/
def Line.isShown (line : Line) : Bool := !isBlankRest line.text

namespace Reader

/-- Characters before a line are part of it. -/
theorem joinLines_append (front text ending : List Char) (rest : List Line)
    : joinLines (⟨front ++ text, ending⟩ :: rest)
      = front ++ joinLines (⟨text, ending⟩ :: rest) := by
  cases rest with
  | nil => rfl
  | cons next rest => simp [joinLines]

/-- The first of some lines are a prefix of them all, by induction on them. -/
theorem joinLines_prefix (front back : List Line)
    : joinLines front <+: joinLines (front ++ back) := by
  induction front with
  | nil => exact List.nil_prefix
  | cons line front ih =>
      cases front with
      | nil =>
          cases back with
          | nil => exact List.prefix_refl _
          | cons next back =>
              simp only [joinLines, List.cons_append, List.nil_append, List.append_assoc]
              exact List.prefix_append _ _
      | cons next front => exact (List.prefix_append_right_inj _).mpr ih

theorem joinLines_suffix (line : Line) (rest : List Line)
    : joinLines rest <:+ joinLines (line :: rest) := by
  cases rest with
  | nil => exact List.nil_suffix
  | cons next rest => exact List.suffix_append _ _

section

variable {r : Reader} {line : Line} {rest : List Line}

/-- A paragraph goes on up to a blank line, by induction on the lines. -/
theorem paragraphLines_of_tame (tame : ∀ line ∈ rest, Tame line.text)
    : paragraphLines [] true rest = (rest.takeWhile Line.isShown, none) := by
  induction rest with
  | nil => rfl
  | cons line rest ih =>
      obtain ⟨own, others⟩ := List.forall_mem_cons.mp tame
      by_cases blank : isBlankRest line.text = true
      · simp [paragraphLines, own.continuation_eq, Line.isShown, blank]
      · simp [paragraphLines, own.continuation_eq, Line.isShown, blank, ih others]

theorem tableAt?_of_tame (tame : ∀ line ∈ rest, Tame line.text) (head : List Char)
    : tableAt? [] head rest.head? = none := by
  cases rest with
  | nil => rfl
  | cons line rest =>
      have here : (inside [] line).cursor = Cursor.start line := rfl
      simp [tableAt?, here, (tame line List.mem_cons_self).delimiterRow?_eq_none]

/-- Where no container is open, there is no list to finish. -/
theorem finishList_of_frames (outermost : r.frames = [])
    : r.finishList.frames = [] ∧ r.finishList.document = r.document := by
  have unchanged : r.finishEmptyItem = { r with emptyItem := false } := by
    simp [finishEmptyItem, innermost, outermost]
  simp only [finishList, unchanged, inList, innermost, outermost, List.head?_nil, Option.map_none]
  cases r.afterBlank <;> exact ⟨by simp, rfl⟩

/-- With inert text begins a paragraph, which goes on up to a blank line. -/
theorem paragraph_of_frames (outermost : r.frames = []) (tame : ∀ line ∈ rest, Tame line.text)
    (source : List Char)
    : r.paragraph source line rest
      = ({ r.finishList.add (.paragraph false r.finishList.task
            (joinLines (⟨source, line.ending⟩ :: rest.takeWhile Line.isShown))) with task := none },
          (rest.takeWhile Line.isShown).length) := by
  have containers : r.finishList.containers = [] := by
    simp [Reader.containers, (finishList_of_frames outermost).1]
  simp [Reader.paragraph, innermost, outermost, containers, tableAt?_of_tame tame,
    paragraphLines_of_tame tame]

/-- A leaf of inert text is a paragraph. -/
theorem leaf_of_inert (few : ((Cursor.start line).spaces 4).1 < 4)
    (inert : Inert ((Cursor.start line).spaces 4).2.rest)
    : r.leaf (Cursor.start line) line rest
      = r.paragraph ((Cursor.start line).spaces 4).2.rest line rest := by
  have html : r.html? ((Cursor.start line).spaces 4).1 ((Cursor.start line).spaces 4).2.rest line
      rest = none := by
    simp only [Reader.html?]
    split
    next whole => exact absurd (congrArg List.head? whole) inert.start.1
    next => rfl
  simp [Reader.leaf, Nat.ne_of_lt few, html, inert.rule, inert.heading, inert.fence,
    inert.definition]

/-- A line without a mark opens no container. -/
theorem openAll_of_unmarked
    (unmarked
      : ((Cursor.start line).spaces 4).1 < 4 →
          Marker.itemMark? ((Cursor.start line).spaces 4).2.rest = none
          ∧ ((Cursor.start line).spaces 4).2.rest.head? ≠ some '>'
          ∧ ((Cursor.start line).spaces 4).2.rest.head? ≠ some ':')
    (fuel : Nat)
    : r.openAll (fuel + 1) (Cursor.start line) = .text r (Cursor.start line) := by
  simp only [Reader.openAll]
  split
  · rfl
  next few =>
      obtain ⟨mark, quote, details⟩ := unmarked (Nat.not_le.mp few)
      generalize (Cursor.start line).spaces 4 = taken at mark quote details
      have item : Marker.item? taken.2 taken.1 = none := by simp [Marker.item?, mark]
      have noDetails : Marker.details? taken.2 taken.1 = none := by
        simp [Marker.details?, Cursor.mark?, details]
      have noQuote : Container.quoteMark? taken.2 = none := by
        simp [Container.quoteMark?, Cursor.mark?, quote]
      simp [item, noDetails, noQuote]

/-- Where no container is open and a line opens none, a leaf begins in it, unless it is blank. -/
theorem step_of_openAll (outermost : r.frames = [])
    (footnote : footnoteMark? line.text = none)
    (opened
      : r.openAll (line.text.length + 1) (Cursor.start line) = .text r (Cursor.start line))
    : r.step line rest
      = if isBlankRest line.text then (r.blankLine, 0)
        else r.leaf (Cursor.start line) line rest := by
  have containers : r.containers = [] := by simp [Reader.containers, outermost]
  have own : (Cursor.start line).rest = line.text := rfl
  simp [Reader.step, containers, Container.descend, outermost, closeMany, beginFootnote, own,
    footnote, opened]

theorem step_of_inert (outermost : r.frames = [])
    (footnote : footnoteMark? line.text = none)
    (few : ((Cursor.start line).spaces 4).1 < 4)
    (inert : Inert ((Cursor.start line).spaces 4).2.rest)
    : r.step line rest = r.paragraph ((Cursor.start line).spaces 4).2.rest line rest := by
  have opened := @openAll_of_unmarked r line (fun _ => ⟨inert.item, inert.start.2⟩) line.text.length
  have shown : isBlankRest line.text = false := (rest_spaces 4 _).1.symm.trans inert.shown
  rw [step_of_openAll outermost footnote opened, shown]
  exact leaf_of_inert few inert

/-- With an image begins a paragraph, which goes on up to a blank line. -/
theorem step_of_beginsImage (begins : BeginsImage line.text)
    (tame : ∀ line ∈ rest, Tame line.text)
    : Reader.step {} line rest
      = ({ document := [.paragraph false none
            (joinLines (line :: rest.takeWhile Line.isShown))] },
          (rest.takeWhile Line.isShown).length) := by
  obtain ⟨c, more, text, starts⟩ := begins.exists_cons
  have whole : (Cursor.start line).spaces 4 = (0, Cursor.start line) := by
    rcases starts with rfl | rfl <;> simp [Cursor.spaces, Cursor.space?, Cursor.start, text]
  have own : (Cursor.start line).rest = line.text := rfl
  have inert : Inert ((Cursor.start line).spaces 4).2.rest := by
    rw [whole, own]
    exact begins.inert
  have few : ((Cursor.start line).spaces 4).1 < 4 := by
    rw [whole]
    exact Nat.zero_lt_succ 3
  rw [step_of_inert rfl begins.inert.footnote few inert, whole, own, paragraph_of_frames rfl tame]
  rfl

theorem readLines_length (r : Reader) (lines : List Line) : readLines r lines.length lines = r := by
  induction lines with
  | nil => rfl
  | cons line rest ih => exact ih

end

end Reader

/-- A line that goes on with whatever paragraph is above it. -/
def Line.GoesOn (line : Line) : Prop := Tame line.text ∧ isBlankRest line.text = false

/-- A text whose first line begins with an image, and whose other lines go on with a paragraph, is
one paragraph.
-/
theorem ofText_of_beginsImage {text : List Char} {line : Line} {rest : List Line}
    (cut : Line.ofText text = line :: rest) (begins : BeginsImage line.text)
    (goOn : ∀ line ∈ rest, line.GoesOn)
    : Outline.ofText text
      = ⟨[.paragraph false none (Reader.joinLines (line :: rest))], [], []⟩ := by
  have shown : ∀ line ∈ rest, line.isShown = true := by
    intro line member
    simp [Line.isShown, (goOn line member).2]
  have all : rest.takeWhile Line.isShown = rest := by
    simpa using @List.takeWhile_append_of_pos _ _ rest [] shown
  have read : Reader.readLines {} 0 (Line.ofText text)
      = { document := [.paragraph false none (Reader.joinLines (line :: rest))] } := by
    rw [cut, Reader.readLines,
      Reader.step_of_beginsImage begins fun line member => (goOn line member).1, all]
    exact Reader.readLines_length _ rest
  rw [Outline.ofText, read]
  rfl

end Publication.Markdown
