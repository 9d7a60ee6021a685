import Publication.Markdown.Block.Reader

/-! What the block structure of a text can be. Whatever the text, its headings have a level from one
to six, its tables have heads of the right length, and its containers are quotes, lists and the
like, so raw markup stands in blocks that hold nothing else.
-/

namespace Publication.Markdown

-----------------------------------------------------------------------------------------
-- Blocks
-----------------------------------------------------------------------------------------

/-- The containers that hold blocks. -/
def Tag.holdsBlocks : Tag → Bool
  | .blockQuote _ => true
  | .list _ => true
  | .item => true
  | .footnoteDefinition _ => true
  | .definitionList => true
  | .definitionDetails => true
  | _ => false

namespace Block

mutual

/-- Whether the headings in a block have a level from one to six, the heads of its tables have a
cell for each column, and its containers are those that hold blocks.
-/
def Regular : Block → Prop
  | .heading level _ _ => 1 ≤ level ∧ level ≤ 6
  | .table alignments head _ => head.length = alignments.length
  | .container tag body => tag.holdsBlocks = true ∧ RegularAll body
  | _ => True

def RegularAll : List Block → Prop
  | [] => True
  | block :: rest => Regular block ∧ RegularAll rest

end

theorem regularAll_iff {blocks : List Block}
    : RegularAll blocks ↔ ∀ block ∈ blocks, block.Regular := by
  induction blocks with
  | nil => simp [RegularAll]
  | cons block rest ih => simp [RegularAll, ih]

theorem Regular.tighten {block : Block} (regular : block.Regular) : block.tighten.Regular := by
  cases block with
  | paragraph => trivial
  | _ => exact regular

theorem Regular.tightenItem {block : Block} (regular : block.Regular)
    : block.tightenItem.Regular := by
  cases block with
  | container tag body =>
      obtain ⟨holds, inside⟩ := regular
      refine ⟨holds, regularAll_iff.mpr fun block member => ?_⟩
      obtain ⟨old, among, rfl⟩ := List.mem_map.mp member
      exact (regularAll_iff.mp inside old among).tighten
  | _ => exact regular

end Block

/-- A container that is closed becomes blocks that may be read. -/
theorem Container.regular_toBlocks (container : Container) {body : List Block}
    (regular : ∀ block ∈ body, block.Regular)
    : ∀ block ∈ container.toBlocks body, block.Regular := by
  have single {tag : Tag} (holds : tag.holdsBlocks = true) {inner : List Block}
      (inside : ∀ block ∈ inner, block.Regular)
      : ∀ block ∈ [Block.container tag inner], block.Regular :=
    List.forall_mem_singleton.mpr ⟨holds, Block.regularAll_iff.mpr inside⟩
  have tightened {inner : List Block} (inside : ∀ block ∈ inner, block.Regular) (tight : Bool)
      : ∀ block ∈ if tight then inner.map Block.tightenItem else inner, block.Regular := by
    cases tight with
    | false => exact inside
    | true =>
        intro block member
        obtain ⟨old, among, rfl⟩ := List.mem_map.mp member
        exact (inside old among).tightenItem
  cases container with
  | list tight mark start => exact single rfl (tightened regular tight)
  | definitions tight =>
      have entries : ∀ block ∈ body.takeWhile Block.isEntry, block.Regular := fun block member =>
        regular block ((List.takeWhile_sublist _).subset member)
      refine List.forall_mem_cons.mpr ⟨⟨rfl, Block.regularAll_iff.mpr ?_⟩, fun block member => ?_⟩
      · exact tightened entries tight
      · exact regular block ((List.dropWhile_sublist _).subset member)
  | _ => exact single rfl regular

-----------------------------------------------------------------------------------------
-- Reading
-----------------------------------------------------------------------------------------

theorem Marker.headingLevel?_bounds {s : List Char} {level : Nat}
    (found : headingLevel? s = some level)
    : 1 ≤ level ∧ level ≤ 6 := by
  simp only [headingLevel?, Option.ite_none_right_eq_some, Bool.and_eq_true,
    decide_eq_true_eq] at found
  obtain ⟨⟨bounds, _⟩, same⟩ := found
  exact Option.some.inj same ▸ bounds

theorem Marker.underline?_bounds {s : List Char} {level : Nat} (found : underline? s = some level)
    : 1 ≤ level ∧ level ≤ 6 := by
  simp only [underline?] at found
  split at found
  · split at found
    · cases found
      split <;> omega
    · cases found
  · cases found

/-- A row is cut or filled up to the number of columns. -/
theorem Marker.length_row (columns : Nat) (s : List Char) : (row columns s).length = columns := by
  simp only [row, List.length_append, List.length_replicate, List.length_take]
  omega

namespace Reader

/-- A reader all of whose blocks are regular. -/
structure Regular (r : Reader) : Prop where
  document : ∀ block ∈ r.document, block.Regular
  frames : ∀ frame ∈ r.frames, ∀ block ∈ frame.body, block.Regular

section

variable {r : Reader}

theorem Regular.add (regular : r.Regular) {block : Block} (own : block.Regular)
    : (r.add block).Regular := by
  obtain ⟨document, frames⟩ := regular
  simp only [Reader.add]
  split
  next outermost => exact ⟨List.forall_mem_cons.mpr ⟨own, document⟩, outermost ▸ frames⟩
  next frame outer opened =>
      rw [opened] at frames
      obtain ⟨first, others⟩ := List.forall_mem_cons.mp frames
      exact ⟨document, List.forall_mem_cons.mpr ⟨List.forall_mem_cons.mpr ⟨own, first⟩, others⟩⟩

theorem Regular.dropLatest (regular : r.Regular) : r.dropLatest.Regular := by
  obtain ⟨document, frames⟩ := regular
  simp only [Reader.dropLatest]
  split
  next outermost =>
      exact ⟨fun block member => document block (List.mem_of_mem_tail member), outermost ▸ frames⟩
  next frame outer opened =>
      rw [opened] at frames
      obtain ⟨first, others⟩ := List.forall_mem_cons.mp frames
      refine ⟨document, List.forall_mem_cons.mpr ⟨fun block member => ?_, others⟩⟩
      exact first block (List.mem_of_mem_tail member)

theorem Regular.push (regular : r.Regular) (container : Container) : (r.push container).Regular :=
  ⟨regular.document, List.forall_mem_cons.mpr ⟨List.forall_mem_nil _, regular.frames⟩⟩

theorem Regular.addAll (regular : r.Regular) {blocks : List Block}
    (own : ∀ block ∈ blocks, block.Regular)
    : (blocks.foldl Reader.add r).Regular := by
  induction blocks generalizing r with
  | nil => exact regular
  | cons block rest ih =>
      obtain ⟨first, others⟩ := List.forall_mem_cons.mp own
      exact ih (regular.add first) others

theorem Regular.close (regular : r.Regular) : r.close.Regular := by
  obtain ⟨document, frames⟩ := regular
  simp only [Reader.close]
  split
  next outermost => exact ⟨document, frames⟩
  next frame outer opened =>
      rw [opened] at frames
      obtain ⟨first, others⟩ := List.forall_mem_cons.mp frames
      have body : ∀ block ∈ frame.body.reverse, block.Regular := fun block member =>
        first block (List.mem_reverse.mp member)
      have rest : Regular { r with frames := outer } := ⟨document, others⟩
      have closed := rest.addAll (frame.container.regular_toBlocks body)
      split
      · exact ⟨closed.document, closed.frames⟩
      · exact ⟨closed.document, closed.frames⟩
      · exact closed

theorem Regular.closeMany (regular : r.Regular) (n : Nat) : (closeMany n r).Regular := by
  induction n generalizing r with
  | zero => exact regular
  | succ n ih => exact ih regular.close

theorem loosen_body (frame : Frame) : (loosen frame).body = frame.body := by
  simp only [loosen]
  split <;> rfl

/-- To loosen a list changes none of its blocks. -/
theorem Regular.loosen {frame : Frame} {outer : List Frame}
    (frames : ∀ f ∈ frame :: outer, ∀ block ∈ f.body, block.Regular)
    : ∀ f ∈ Reader.loosen frame :: outer, ∀ block ∈ f.body, block.Regular := by
  obtain ⟨first, others⟩ := List.forall_mem_cons.mp frames
  exact List.forall_mem_cons.mpr ⟨loosen_body frame ▸ first, others⟩

theorem Regular.finishEmptyItem (regular : r.Regular) : r.finishEmptyItem.Regular := by
  have closed (ended : Bool) : Regular (if ended then r.close else r) := by
    cases ended with
    | false => exact regular
    | true => exact regular.close
  exact ⟨(closed _).document, (closed _).frames⟩

theorem Regular.finishList (regular : r.Regular) : r.finishList.Regular := by
  have closed : Regular
      (if r.finishEmptyItem.inList then r.finishEmptyItem.close else r.finishEmptyItem) := by
    split
    · exact regular.finishEmptyItem.close
    · exact regular.finishEmptyItem
  simp only [Reader.finishList]
  generalize (if r.finishEmptyItem.inList then r.finishEmptyItem.close
    else r.finishEmptyItem) = ended at closed ⊢
  split
  · split
    next inner outer rest opened =>
        obtain ⟨document, frames⟩ := closed
        rw [opened] at frames
        obtain ⟨first, others⟩ := List.forall_mem_cons.mp frames
        exact ⟨document, List.forall_mem_cons.mpr ⟨first, Regular.loosen others⟩⟩
    · exact ⟨closed.document, closed.frames⟩
  · exact closed

theorem Regular.continueList (regular : r.Regular) (mark : Marker.ItemMark)
    : (r.continueList mark).Regular := by
  have finished := regular.finishEmptyItem
  have begun {r : Reader} (regular : r.Regular) (container : Container)
      : Regular { r.push container with afterBlank := false } :=
    ⟨(regular.push container).document, (regular.push container).frames⟩
  simp only [Reader.continueList]
  split
  · exact begun finished _
  next frame outer opened =>
      split
      · split
        · split
          · refine ⟨finished.document, Regular.loosen ?_⟩
            rw [← opened]
            exact finished.frames
          · exact finished
        · exact begun finished.finishList _
      · exact begun finished.finishList _

theorem Regular.beginDetails (regular : r.Regular) {indent : Nat} {begun : Reader}
    (found : r.beginDetails indent = some begun)
    : begun.Regular := by
  obtain ⟨titled, chosen, rfl⟩ := Option.map_eq_some_iff.mp found
  have kept : titled.Regular := by
    split at chosen
    · cases chosen
      exact regular.dropLatest.add trivial
    · cases chosen
      exact regular
    · cases chosen
      exact (regular.dropLatest.push _).add trivial
    · cases chosen
  refine Regular.push ?_ _
  split
  next frame outer opened =>
      split
      · refine ⟨kept.document, Regular.loosen ?_⟩
        rw [← opened]
        exact kept.frames
      · exact kept
  · exact kept

end

/-- What is left of a line behind containers that are opened by a regular reader. -/
def Opened.Regular : Opened → Prop
  | .done r => r.Regular
  | .text r _ => r.Regular

section

variable {r : Reader}

theorem Regular.beginItem (regular : r.Regular) (mark : Marker.ItemMark) (at_ : Cursor)
    (indent : Nat)
    : (r.beginItem mark at_ indent).Regular := by
  have pushed := (regular.continueList mark).push (.item indent)
  simp only [Reader.beginItem]
  split
  · exact ⟨pushed.document, pushed.frames⟩
  · split
    next checked behind _ =>
        have boxed : Regular (((r.continueList mark).push (.item indent)).add (.task checked)) :=
          pushed.add trivial
        split
        · exact ⟨boxed.document, boxed.frames⟩
        · exact ⟨pushed.document, pushed.frames⟩
    · exact pushed

/-- Containers are opened without a heading, by induction on the fuel. -/
theorem Regular.openAll (regular : r.Regular) (fuel : Nat) (at_ : Cursor)
    : (r.openAll fuel at_).Regular := by
  induction fuel generalizing r at_ with
  | zero => exact regular
  | succ fuel ih =>
      simp only [Reader.openAll]
      split
      · exact regular
      · split
        next mark behind indent _ =>
            have begun := regular.beginItem mark behind indent
            split
            next left at_ opened =>
                have kept : Opened.Regular (.text left at_) := opened ▸ begun
                exact ih kept at_
            next => exact begun
        · split
          next begun behind found =>
              obtain ⟨_, _, inner⟩ := Option.bind_eq_some_iff.mp found
              obtain ⟨begun', detailed, same⟩ := Option.map_eq_some_iff.mp inner
              obtain ⟨rfl, _⟩ := Prod.mk.inj same
              have kept := regular.beginDetails detailed
              split
              · exact ⟨kept.document, kept.frames⟩
              · exact ih kept behind
          · split
            · exact ih (regular.finishList.push .quote) _
            · exact regular

theorem Regular.beginFootnote (regular : r.Regular) (at_ : Cursor)
    : (r.beginFootnote at_).1.Regular := by
  simp only [Reader.beginFootnote]
  split
  next label rest _ =>
      have pushed := regular.finishList.push (.footnote label)
      exact ⟨pushed.document, pushed.frames⟩
  · exact regular

theorem Regular.blankLine (regular : r.Regular) : r.blankLine.Regular := by
  simp only [Reader.blankLine]
  split
  · exact regular
  · exact ⟨regular.document, regular.frames⟩

theorem paragraphLines_bounds {containers : List Container} {inParagraph : Bool}
    {lines : List Line} {level : Nat}
    (found : (paragraphLines containers inParagraph lines).2 = some level)
    : 1 ≤ level ∧ level ≤ 6 := by
  induction lines with
  | nil => cases found
  | cons line rest ih =>
      simp only [paragraphLines] at found
      split at found
      next underlined =>
          cases found
          simp only [continuation] at underlined
          split at underlined
          · split at underlined
            next marked =>
                cases underlined
                exact Marker.underline?_bounds (Option.ite_none_right_eq_some.mp marked).2
            · split at underlined <;> cases underlined
          · split at underlined <;> cases underlined
      next => cases found
      next => exact ih found

theorem Regular.paragraph (regular : r.Regular) (source : List Char) (line : Line)
    (rest : List Line)
    : (r.paragraph source line rest).1.Regular := by
  unfold Reader.paragraph
  extract_lets afterDetails ready containers
  have readied : ready.Regular := by
    simp only [ready]
    split
    · split
      · exact ⟨regular.document, regular.frames⟩
      · exact regular.finishList
    · exact regular.finishList
  split
  · exact readied.add (Marker.length_row _ _)
  · dsimp only
    split
    next level found => exact readied.add (paragraphLines_bounds found)
    next =>
        have added (text : List Char) : (ready.add (.paragraph false ready.task text)).Regular :=
          readied.add trivial
        exact ⟨(added _).document, (added _).frames⟩

theorem Regular.definition? (regular : r.Regular) {source : List Char} {line : Line}
    {rest : List Line} {leaf : Leaf} (found : r.definition? source line rest = some leaf)
    : leaf.1.Regular := by
  simp only [Reader.definition?] at found
  split at found
  · obtain ⟨_, _, rfl⟩ := Option.map_eq_some_iff.mp found
    exact ⟨regular.document, regular.frames⟩
  · cases found

theorem Regular.html? (regular : r.Regular) {indent : Nat} {source : List Char} {line : Line}
    {rest : List Line} {leaf : Leaf} (found : r.html? indent source line rest = some leaf)
    : leaf.1.Regular := by
  simp only [Reader.html?] at found
  split at found
  · split at found
    · cases found
      exact regular.finishList.add trivial
    · cases found
  · cases found

theorem Regular.leaf (regular : r.Regular) (at_ : Cursor) (line : Line) (rest : List Line)
    : (r.leaf at_ line rest).1.Regular := by
  have finished := regular.finishList
  simp only [Reader.leaf]
  split
  · exact finished.add trivial
  · split
    next found => exact regular.html? found
    · split
      · exact finished.add trivial
      · split
        next level found => exact finished.add (Marker.headingLevel?_bounds found)
        · split
          · exact finished.add trivial
          · cases defined : r.definition? (at_.spaces 4).2.rest line rest with
            | some leaf => exact regular.definition? defined
            | none => exact regular.paragraph _ _ _

theorem Regular.step (regular : r.Regular) (line : Line) (rest : List Line)
    : (r.step line rest).1.Regular := by
  have closed := regular.closeMany
    (r.frames.length - (Container.descend r.containers (Cursor.start line)).1)
  have noted := closed.beginFootnote (Container.descend r.containers (Cursor.start line)).2
  have opened := noted.openAll (line.text.length + 1)
    ((Reader.closeMany (r.frames.length
      - (Container.descend r.containers (Cursor.start line)).1) r).beginFootnote
        (Container.descend r.containers (Cursor.start line)).2).2
  simp only [Reader.step]
  split
  next done used =>
      have left : Opened.Regular (.done done) := used ▸ opened
      exact left
  next text at_ used =>
      have left : Opened.Regular (.text text at_) := used ▸ opened
      split
      · exact Regular.blankLine left
      · exact Regular.leaf left _ _ _

/-- Lines are read to regular blocks, by induction on them. -/
theorem Regular.readLines (regular : r.Regular) (skip : Nat) (lines : List Line)
    : (readLines r skip lines).Regular := by
  induction lines generalizing r skip with
  | nil => cases skip <;> exact regular
  | cons line rest ih =>
      cases skip with
      | succ skip => exact ih regular skip
      | zero => exact ih (regular.step line rest) _

end

end Reader

/-- The blocks of any text are regular. -/
theorem regularAll_ofText (text : List Char) : Block.RegularAll (Outline.ofText text).blocks := by
  have start : Reader.Regular {} := ⟨List.forall_mem_nil _, List.forall_mem_nil _⟩
  have read := start.readLines 0 (Line.ofText text)
  refine Block.regularAll_iff.mpr fun block member => ?_
  exact (read.closeMany _).document block (List.mem_reverse.mp member)

end Publication.Markdown
