import Publication.Proofs.Markdown.Links
import Publication.Proofs.Markdown.Paragraphs

/-! An image with a blank line in its text. That line ends the paragraph before the text is closed,
so there is no image in it, nor is there one in the paragraphs and the code behind it.
-/

namespace Publication.Markdown

open Publication.Text
open Publication.Markdown.Token (Escaped)

-----------------------------------------------------------------------------------------
-- Blocks without images
-----------------------------------------------------------------------------------------

namespace Block

/-- No image begins in a block, whatever its references refer to. -/
def IsImageless (block : Block) : Prop := ∀ refs, Imageless (block.events refs)

theorem imageless_eventsAll {blocks : List Block} (each : ∀ block ∈ blocks, block.IsImageless)
    (refs : References)
    : Imageless (eventsAll refs blocks) := by
  induction blocks with
  | nil => exact List.forall_mem_nil _
  | cons block rest ih =>
      obtain ⟨first, others⟩ := List.forall_mem_cons.mp each
      rw [eventsAll]
      exact imageless_append_iff.mpr ⟨first refs, ih others⟩

theorem isImageless_paragraph {source : List Char}
    (inner : ∀ refs, Inline.AllImageless (Inline.ofText refs source)) (box : Option Bool)
    : (paragraph false box source).IsImageless := by
  intro refs
  simp only [events, Bool.false_eq_true, if_false]
  refine Imageless.around rfl (imageless_append_iff.mpr ⟨?_, ?_⟩)
  · cases box with
    | none => exact List.forall_mem_nil _
    | some checked => exact imageless_singleton rfl
  · exact Inline.imageless_eventsAll (inner refs)

theorem isImageless_code (kind : CodeKind) (lines : List Line)
    : (code kind lines).IsImageless := by
  intro refs
  rw [events]
  refine Imageless.around rfl fun event member => ?_
  obtain ⟨line, _, inside⟩ := List.mem_flatMap.mp member
  have piece {s : List Char} {event : Event}
      (inside : event ∈ if s.isEmpty then [] else [Event.text (String.ofList s)])
      : event.beginsImage = false := by
    split at inside
    · cases inside
    · rw [List.mem_singleton.mp inside]
      rfl
  simp only [Line.events] at inside
  split at inside
  · exact piece inside
  · rcases List.mem_append.mp inside with inside | inside
    · exact piece inside
    · rw [List.mem_singleton.mp inside]
      rfl
  · exact piece inside

end Block

-----------------------------------------------------------------------------------------
-- Lines without images
-----------------------------------------------------------------------------------------

/-- Lines of tame text without an image in them. -/
structure Still (lines : List Line) : Prop where
  tame : ∀ line ∈ lines, Tame line.text
  markless : Markless (Reader.joinLines lines)

section

variable {line : Line} {rest : List Line}

theorem Still.tail (still : Still (line :: rest)) : Still rest where
  tame := (List.forall_mem_cons.mp still.tame).2
  markless := fun found => still.markless (found.trans (Reader.joinLines_suffix line rest).isInfix)

/-- No image is in a paragraph that is taken from such lines. -/
theorem Still.markless_paragraph (still : Still (line :: rest)) {source : List Char}
    (behind : source <:+ line.text)
    : Markless (Reader.joinLines (⟨source, line.ending⟩ :: rest.takeWhile Line.isShown)) := by
  intro found
  obtain ⟨front, whole⟩ := behind
  have first : Reader.joinLines (line :: rest)
      = front ++ Reader.joinLines (⟨source, line.ending⟩ :: rest) := by
    rw [← Reader.joinLines_append, whole]
  have shown := Reader.joinLines_prefix
    (⟨source, line.ending⟩ :: rest.takeWhile Line.isShown) (rest.dropWhile Line.isShown)
  rw [List.cons_append, List.takeWhile_append_dropWhile] at shown
  refine still.markless (found.trans (shown.isInfix.trans ?_))
  rw [first]
  exact (List.suffix_append _ _).isInfix

theorem Tame.footnoteMark?_eq_none {s : List Char} (tame : Tame s) : footnoteMark? s = none := by
  cases s with
  | nil => rfl
  | cons c s => exact tame.head.footnoteMark?_eq_none s

/-- No container is opened by tame text. -/
theorem Tame.openAll_eq (tame : Tame line.text) (r : Reader) (fuel : Nat)
    : r.openAll (fuel + 1) (Cursor.start line) = .text r (Cursor.start line) := by
  refine Reader.openAll_of_unmarked (fun few => ?_) fuel
  have left : ((Cursor.start line).spaces 4).2.rest = line.text.dropWhile isSpace :=
    (rest_spaces 4 (Cursor.start line)).2 few
  rw [left]
  cases start : line.text.dropWhile isSpace with
  | nil => exact ⟨rfl, nofun, nofun⟩
  | cons c more =>
      have behind := start ▸ tame.dropSpaces
      have starts := behind.head.not_mem
      simp only [blockMarks, List.mem_cons, List.not_mem_nil, or_false, not_or] at starts
      exact ⟨behind.itemMark?_eq_none, by simp [starts], by simp [starts]⟩

end

namespace Reader

/-- A reader that is outside all containers and has read no image. -/
structure Quiet (r : Reader) : Prop where
  outermost : r.frames = []
  blocks : ∀ block ∈ r.document, block.IsImageless

section

variable {r : Reader} {line : Line} {rest : List Line}

theorem Quiet.finishList (quiet : r.Quiet) : r.finishList.Quiet := by
  obtain ⟨frames, document⟩ := finishList_of_frames quiet.outermost
  exact ⟨frames, document ▸ quiet.blocks⟩

theorem Quiet.add (quiet : r.Quiet) {block : Block} (plain : block.IsImageless)
    : (r.add block).Quiet := by
  have added : r.add block = { r with document := block :: r.document } := by
    simp [Reader.add, quiet.outermost]
  rw [added]
  exact ⟨quiet.outermost, List.forall_mem_cons.mpr ⟨plain, quiet.blocks⟩⟩

theorem Quiet.paragraph (quiet : r.Quiet) (still : Still (line :: rest)) {source : List Char}
    (behind : source <:+ line.text)
    : (r.paragraph source line rest).1.Quiet := by
  have plain := Block.isImageless_paragraph
    (Inline.imageless_ofText (still.markless_paragraph behind)) r.finishList.task
  obtain ⟨outermost, blocks⟩ := quiet.finishList.add plain
  rw [paragraph_of_frames quiet.outermost still.tail.tame]
  exact ⟨outermost, blocks⟩

/-- A line of tame text is blank, or it begins a paragraph or code. -/
theorem Quiet.step (quiet : r.Quiet) (still : Still (line :: rest))
    : (r.step line rest).1.Quiet := by
  have tame := still.tame line List.mem_cons_self
  rw [step_of_openAll quiet.outermost tame.footnoteMark?_eq_none (tame.openAll_eq r _)]
  split
  · have noted : r.blankLine = { r with afterBlank := true } := by
      simp [blankLine, innermost, quiet.outermost]
    rw [noted]
    exact ⟨quiet.outermost, quiet.blocks⟩
  next shown =>
      by_cases few : ((Cursor.start line).spaces 4).1 < 4
      · have left : ((Cursor.start line).spaces 4).2.rest = line.text.dropWhile isSpace :=
          (rest_spaces 4 (Cursor.start line)).2 few
        have behind : ((Cursor.start line).spaces 4).2.rest <:+ line.text := by
          rw [left]
          exact List.dropWhile_suffix _
        have inert : Inert ((Cursor.start line).spaces 4).2.rest := by
          have filled := (rest_spaces 4 (Cursor.start line)).1.trans (Bool.eq_false_iff.mpr shown)
          obtain ⟨c, more, start⟩ := exists_start (Bool.eq_false_iff.mpr shown)
          rw [left, start] at filled ⊢
          exact (start ▸ tame.dropSpaces).inert filled
        rw [leaf_of_inert few inert]
        exact quiet.paragraph still behind
      · have four : ((Cursor.start line).spaces 4).1 = 4 :=
          Nat.le_antisymm (spaces_le 4 _) (Nat.not_lt.mp few)
        simp only [leaf, four, if_true]
        exact quiet.finishList.add (Block.isImageless_code _ _)

/-- No image is read in lines without one, by induction on them. -/
theorem Quiet.readLines {lines : List Line} (quiet : r.Quiet) (still : Still lines) (skip : Nat)
    : (readLines r skip lines).Quiet := by
  induction lines generalizing r skip with
  | nil => cases skip <;> exact quiet
  | cons line rest ih =>
      cases skip with
      | succ skip => exact ih quiet still.tail skip
      | zero => exact ih (quiet.step still) still.tail _

end

end Reader

-----------------------------------------------------------------------------------------
-- Images without an end
-----------------------------------------------------------------------------------------

theorem Token.Escaped.append {s t : List Char} (first : Escaped s) (second : Escaped t)
    : Escaped (s ++ t) := by
  induction first with
  | nil => exact second
  | plain letter _ ih => exact .plain letter ih
  | mark sign _ ih => exact .mark sign ih

theorem escaped_joinLines {lines : List Line}
    (each : ∀ line ∈ lines, Escaped line.text ∧ Escaped line.ending)
    : Escaped (Reader.joinLines lines) := by
  induction lines with
  | nil => exact .nil
  | cons line rest ih =>
      obtain ⟨⟨text, ending⟩, others⟩ := List.forall_mem_cons.mp each
      cases rest with
      | nil => exact text
      | cons next rest => exact (text.append ending).append (ih others)

/-- An image is none if there is a blank line in its text. -/
theorem imageless_of_blank {text : List Char} {line : Line} {rest : List Line}
    (cut : Line.ofText text = ⟨'!' :: '[' :: line.text, line.ending⟩ :: rest)
    (escaped : ∀ other ∈ (line :: rest).dropLast, Escaped other.text ∧ Escaped other.ending)
    (still : Still rest) {blank : Line} (member : blank ∈ rest)
    (empty : isBlankRest blank.text = true)
    : ∀ block ∈ (Outline.ofText text).blocks, block.IsImageless := by
  have shown : rest.takeWhile Line.isShown ++ rest.dropWhile Line.isShown = rest :=
    List.takeWhile_append_dropWhile
  have broken : rest.dropWhile Line.isShown ≠ [] := by
    intro all
    rw [all, List.append_nil] at shown
    have own := List.all_eq_true.mp (List.all_takeWhile (p := Line.isShown)) blank (shown ▸ member)
    simp [Line.isShown, empty] at own
  -- The paragraph that the blank line ends holds the mark of the image, but no bracket to end it.
  have opened : Escaped (Reader.joinLines (line :: rest.takeWhile Line.isShown)) := by
    refine escaped_joinLines fun other inside => escaped other ?_
    rw [← shown, ← List.cons_append, List.dropLast_append_of_ne_nil broken]
    exact List.mem_append_left _ inside
  have first := @Reader.step_of_beginsImage ⟨'!' :: '[' :: line.text, line.ending⟩ rest
    ⟨_, .inl rfl⟩ still.tame
  have joined : Reader.joinLines
      (⟨'!' :: '[' :: line.text, line.ending⟩ :: rest.takeWhile Line.isShown)
      = '!' :: '[' :: Reader.joinLines (line :: rest.takeWhile Line.isShown) :=
    Reader.joinLines_append ['!', '['] line.text line.ending _
  have quiet : (Reader.step {} ⟨'!' :: '[' :: line.text, line.ending⟩ rest).1.Quiet := by
    rw [first, joined]
    refine ⟨rfl, fun block inside => ?_⟩
    rw [List.mem_singleton.mp inside]
    exact Block.isImageless_paragraph (imageless_open opened) none
  have all := quiet.readLines still
    (Reader.step {} ⟨'!' :: '[' :: line.text, line.ending⟩ rest).2
  intro block inside
  rw [Outline.ofText, cut, Reader.readLines, all.outermost] at inside
  exact all.blocks block (List.mem_reverse.mp inside)

end Publication.Markdown
