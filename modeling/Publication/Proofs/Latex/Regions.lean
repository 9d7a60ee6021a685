import Publication.Latex.Compiler
import Publication.Proofs.Text.Lines
import Publication.Text.Transliteration.Table

/-! Regions and blocks. The scan of a body ends a region where the grammar of blocks wants its end:
a region that was closed is a block as soon as its alternative text ends, and one that was not is
none.
-/

namespace Publication.Latex

open Publication.Text

-----------------------------------------------------------------------------------------
-- The grammar of blocks
-----------------------------------------------------------------------------------------

theorem closer_getLast? : closer.getLast? = some '\x7d' := by decide

theorem bracket_not_mem_opener : ']' ∉ opener := by decide

theorem bracket_not_mem_closer : ']' ∉ closer := by decide

theorem trimEnd_append_closer (s : List Char) {blanks : List Char} (blank : allBlank blanks = true)
    : trimEnd (s ++ closer ++ blanks) = s ++ closer := by
  rw [trimEnd_append_of_allBlank _ blank]
  exact trimEnd_of_getLast? (by rw [List.getLast?_append, closer_getLast?]; rfl) (by decide)

/-- A region has the shape of a block if it is the opener, a text without a bracket, a bracket, a
body that ends in a line feed, the closer and blanks.
-/
theorem shape?_eq_some_iff {raw alt body : List Char}
    : shape? raw = some (alt, body)
      ↔ ']' ∉ alt ∧ body.getLast? = some '\n'
        ∧ ∃ blanks,
            allBlank blanks = true ∧ raw = opener ++ alt ++ ']' :: (body ++ closer ++ blanks) := by
  constructor
  · intro shaped
    obtain ⟨text, opened, found⟩ := Option.bind_eq_some_iff.mp shaped
    obtain rfl := strip?_eq_some_iff.mp opened
    split at found
    next c rest stopping =>
        obtain ⟨inner, closed, cut⟩ := Option.bind_eq_some_iff.mp found
        have trimmed := stripEnd?_eq_some_iff.mp closed
        split at cut
        next ended =>
            cases cut
            have first : c = ']' := by
              have stopped := List.head?_dropWhile_not (· ≠ ']') text
              rw [stopping] at stopped
              simpa using stopped
            subst first
            obtain ⟨blanks, whole, blank⟩ := exists_trimEnd_append rest
            refine ⟨fun member => ?_, ended, blanks, blank, ?_⟩
            · simpa using List.all_eq_true.mp List.all_takeWhile ']' member
            · rw [← trimmed, ← whole, ← stopping, List.append_assoc,
                List.takeWhile_append_dropWhile]
        next => cases cut
    next => cases found
  · rintro ⟨plain, ended, blanks, blank, rfl⟩
    have passed : ∀ c ∈ alt, decide (c ≠ ']') = true := by
      intro c member
      simp only [decide_eq_true_eq]
      rintro rfl
      exact plain member
    have opened : strip? opener (opener ++ alt ++ ']' :: (body ++ closer ++ blanks))
        = some (alt ++ ']' :: (body ++ closer ++ blanks)) := by
      rw [strip?_eq_some_iff, List.append_assoc]
    have closed : stripEnd? closer (trimEnd (body ++ closer ++ blanks)) = some body := by
      rw [trimEnd_append_closer body blank, stripEnd?_eq_some_iff]
    rw [shape?, opened, Option.bind_some, List.dropWhile_append_of_pos passed,
      List.takeWhile_append_of_pos passed]
    have here : List.dropWhile (fun c => decide (c ≠ ']')) (']' :: (body ++ closer ++ blanks))
        = ']' :: (body ++ closer ++ blanks) := rfl
    rw [here]
    simp only [closed, Option.bind_some, ended, if_true]
    simp

/-- A block has the body that its region was cut to. -/
theorem exists_shape?_of_parse? {raw : List Char} {block : Block}
    (parsed : Block.parse? (String.ofList raw) = some block)
    : ∃ alt, shape? raw = some (alt, block.body.toList) := by
  obtain ⟨⟨alt, body⟩, shaped, made⟩ := Option.map_eq_some_iff.mp parsed
  rw [String.toList_ofList] at shaped
  refine ⟨alt, shaped.trans ?_⟩
  dsimp only at made
  split at made <;> rw [← made, String.toList_ofList]

theorem parse?_eq_none_iff {raw : List Char}
    : Block.parse? (String.ofList raw) = none ↔ shape? raw = none := by
  rw [Block.parse?, String.toList_ofList, Option.map_eq_none_iff]

-----------------------------------------------------------------------------------------
-- Where the scan ends a region
-----------------------------------------------------------------------------------------

/-- A line that closes a region, given the lines behind it. -/
def Closes (line : List Char) (behind : List (List Char)) : Prop :=
  trimEnd line = closer ∧ (behind.head?.map allBlank).getD true = true

/-- A region ends with the first line that closes it, or else takes all lines, by induction on
them.
-/
theorem regionLength_cases (found : List (List Char))
    : (∃ front line behind,
        found = front ++ line :: behind
        ∧ Closes line behind
        ∧ regionLength found = front.length + 1)
      ∨ (regionLength found = found.length
        ∧ ∀ front line behind, found = front ++ line :: behind → ¬ Closes line behind) := by
  induction found with
  | nil =>
      refine .inr ⟨rfl, fun front line behind whole => ?_⟩
      simp at whole
  | cons first rest ih =>
      by_cases closes : Closes first rest
      · refine .inl ⟨[], first, rest, rfl, closes, ?_⟩
        simp [regionLength, closes.1, closes.2]
      · have goesOn : regionLength (first :: rest) = regionLength rest + 1 := by
          rw [regionLength, if_neg]
          simpa only [Bool.and_eq_true, decide_eq_true_eq, Closes] using closes
        rcases ih with ⟨front, line, behind, rfl, ends, length⟩ | ⟨length, none⟩
        · exact .inl ⟨first :: front, line, behind, rfl, ends, by rw [goesOn, length]; rfl⟩
        · refine .inr ⟨by rw [goesOn, length]; rfl, fun front line behind whole => ?_⟩
          cases front with
          | nil =>
              cases whole
              exact closes
          | cons _ front =>
              cases whole
              exact none front line behind rfl

theorem regionLength_pos (line : List Char) (rest : List (List Char))
    : 0 < regionLength (line :: rest) := by
  rw [regionLength]
  split <;> omega

/-- A region begins in one of the lines, with the opener, and is as long as its closing wants. -/
theorem exists_of_mem_scanLines {scan : Scan} {skip : Nat} {found : List (List Char)}
    {raw : List Char} (member : Part.latex raw ∈ scanLines scan skip found)
    : ∃ before line rest text,
        found = before ++ line :: rest
        ∧ line = opener ++ text
        ∧ raw = ((line :: rest).take (regionLength (line :: rest))).flatten := by
  have flushed (scan : Scan) : Part.latex raw ∉ scan.flush := by
    simp only [Scan.flush]
    split <;> simp
  induction found generalizing scan skip with
  | nil => cases skip <;> exact absurd member (flushed scan)
  | cons line rest ih =>
      -- what is found behind the first line is found in one of the lines
      have behind {scan : Scan} {skip : Nat} (later : Part.latex raw ∈ scanLines scan skip rest)
          : ∃ before other others text,
              line :: rest = before ++ other :: others
              ∧ other = opener ++ text
              ∧ raw = ((other :: others).take (regionLength (other :: others))).flatten := by
        obtain ⟨before, other, others, text, rfl, begins, whole⟩ := ih later
        exact ⟨line :: before, other, others, text, rfl, begins, whole⟩
      cases skip with
      | succ skip => exact behind member
      | zero =>
          simp only [scanLines] at member
          split at member
          · exact behind member
          · split at member
            · exact behind member
            · split at member
              next opens =>
                  simp only [Bool.and_eq_true, Option.isSome_iff_exists] at opens
                  obtain ⟨_, text, stripped⟩ := opens
                  rcases List.mem_append.mp member with early | member
                  · exact absurd early (flushed scan)
                  · rcases List.mem_cons.mp member with same | later
                    · refine ⟨[], line, rest, text, rfl, strip?_eq_some_iff.mp stripped, ?_⟩
                      have length := regionLength_pos line rest
                      rw [Part.latex.inj same, ← List.take_succ_cons, Nat.sub_add_cancel length]
                    · exact behind later
              next => exact behind member

-----------------------------------------------------------------------------------------
-- Regions are blocks
-----------------------------------------------------------------------------------------

/-- The last line of a text. -/
def lastLine (s : List Char) : List Char := (lines s).getLast?.getD []

theorem lastLine_append {front : List (List Char)} {line : List Char}
    (cut : AreLines (front ++ [line]))
    : lastLine (front ++ [line]).flatten = line := by
  rw [lastLine, cut.lines_flatten, List.getLast?_concat, Option.getD_some]

/-- Text that ends in the closer and blanks has a line that closes it. -/
theorem exists_closes {front blanks : List Char} (ended : front.getLast? = some '\n')
    (blank : allBlank blanks = true)
    : ∃ before line behind,
        lines (front ++ closer ++ blanks) = before ++ line :: behind ∧ Closes line behind := by
  obtain ⟨first, rest, rfl, cut⟩ :=
    exists_lines_append_eq (s := closer) (by decide) (by decide) blanks
  have blankFirst : allBlank first = true := by
    rw [allBlank, List.all_append, Bool.and_eq_true] at blank
    exact blank.1
  refine ⟨lines front, closer ++ first, lines rest, ?_, ?_, ?_⟩
  · rw [List.append_assoc, lines_append ended, cut]
  · exact trimEnd_append_closer [] blankFirst
  · cases next : lines rest with
    | nil => rfl
    | cons line others =>
        refine List.all_eq_true.mpr fun c inside => ?_
        have member : c ∈ rest := mem_of_mem_lines (next ▸ List.mem_cons_self) inside
        exact List.all_eq_true.mp blank c (List.mem_append_right first member)

/-- Lines before another one end in a line feed. -/
theorem getLast?_flatten_of_areLines {front : List (List Char)} {last : List Char}
    (some_ : front ≠ []) (cut : AreLines (front ++ [last]))
    : front.flatten.getLast? = some '\n' := by
  obtain ⟨others, line, rfl⟩ := List.eq_nil_or_concat front |>.resolve_left some_
  rw [List.concat_eq_append, List.append_assoc] at cut
  obtain ⟨text, _, rfl⟩ := cut.drop.exists_text
  rw [List.concat_eq_append, List.flatten_append, List.flatten_singleton, ← List.append_assoc,
    List.getLast?_concat]

/-- A line that closes a region does not open one. -/
theorem trimEnd_opener_append_ne (text : List Char) : trimEnd (opener ++ text) ≠ closer := by
  intro same
  obtain ⟨blanks, whole, _⟩ := exists_trimEnd_append (opener ++ text)
  rw [same] at whole
  have start := congrArg (List.take 2) whole
  rw [List.take_append_of_le_length (by decide), List.take_append_of_le_length (by decide)] at start
  exact absurd start (by decide)

/-- The lines of a region, and whether the last of them closes it or it runs to the end. -/
theorem region_cases {body raw : List Char} (member : Part.latex raw ∈ parts body)
    : (∃ front last,
        raw = front ++ last
        ∧ lastLine raw = last
        ∧ trimEnd last = closer
        ∧ front.getLast? = some '\n'
        ∧ ∃ text, front = opener ++ text)
      ∨ (raw <:+ body ∧ ∀ front line behind, lines raw = front ++ line :: behind →
          ¬ Closes line behind) := by
  obtain ⟨before, line, rest, text, cut, begins, whole⟩ := exists_of_mem_scanLines member
  have apart : AreLines (line :: rest) := (cut ▸ areLines_lines body).drop
  rcases regionLength_cases (line :: rest) with
    ⟨front, last, behind, found, closes, length⟩ | ⟨length, none⟩
  · left
    have parts : front ++ last :: behind = (front ++ [last]) ++ behind := List.append_cons ..
    have taken : (line :: rest).take (regionLength (line :: rest)) = front ++ [last] := by
      rw [length, found, parts]
      exact List.take_left' (by simp)
    rw [taken] at whole
    rw [found, parts] at apart
    have ends := lastLine_append apart.take
    have filled : front ≠ [] := by
      rintro rfl
      obtain rfl : line = last := (List.cons.inj found).1
      exact trimEnd_opener_append_ne text (begins ▸ closes.1)
    refine ⟨front.flatten, last, by simp [whole], whole ▸ ends, closes.1,
      getLast?_flatten_of_areLines filled apart.take, ?_⟩
    obtain ⟨first, others, rfl⟩ := List.exists_cons_of_ne_nil filled
    obtain rfl : line = first := (List.cons.inj found).1
    exact ⟨text ++ others.flatten, by simp [begins]⟩
  · right
    rw [length, List.take_length] at whole
    refine ⟨⟨before.flatten, ?_⟩, ?_⟩
    · rw [whole, ← List.flatten_append, ← cut, flatten_lines]
    · rw [whole, apart.lines_flatten]
      exact none

section

variable {text last : List Char} (fed : (opener ++ text).getLast? = some '\n')
  (closed : trimEnd last = closer)

include closed in
/-- The body of a closed region stands between its first bracket and its last line. -/
theorem eq_of_shape?_closed {alt body : List Char}
    (shaped : shape? (opener ++ text ++ last) = some (alt, body))
    : ']' ∉ opener ++ alt ∧ opener ++ text = opener ++ alt ++ ']' :: body := by
  obtain ⟨plain, _, others, blankOthers, whole⟩ := shape?_eq_some_iff.mp shaped
  obtain ⟨blanks, ends, blank⟩ := exists_trimEnd_append last
  rw [closed] at ends
  refine ⟨by simp [plain, bracket_not_mem_opener], ?_⟩
  have same : opener ++ text ++ closer ++ blanks
      = opener ++ alt ++ ']' :: body ++ closer ++ others := by
    rw [List.append_assoc _ closer, ← ends, whole]
    simp
  -- the blanks behind the closer do not count, so the texts before it are the same
  have trimmed := congrArg trimEnd same
  rw [trimEnd_append_closer _ blank, trimEnd_append_closer _ blankOthers] at trimmed
  exact List.append_cancel_right trimmed

include fed closed in
/-- A closed region with a bracket has the shape of a block. -/
theorem exists_shape?_of_closed (bracket : ']' ∈ opener ++ text ++ last)
    : ∃ alt body, shape? (opener ++ text ++ last) = some (alt, body) := by
  obtain ⟨blanks, ends, blank⟩ := exists_trimEnd_append last
  rw [closed] at ends
  subst ends
  have inside : ']' ∈ text := by
    have blankless : ']' ∉ blanks := by
      intro among
      exact absurd (List.all_eq_true.mp blank _ among) (by decide)
    simpa [bracket_not_mem_opener, bracket_not_mem_closer, blankless] using bracket
  obtain ⟨alt, body, rfl, plain⟩ := List.eq_append_cons_of_mem inside
  refine ⟨alt, body, shape?_eq_some_iff.mpr ⟨plain, ?_, blanks, blank, by simp⟩⟩
  -- the line feed before the last line is no bracket
  cases body with
  | nil =>
      rw [← List.append_assoc, List.getLast?_concat] at fed
      exact absurd (Option.some.inj fed) (by decide)
  | cons c body =>
      simpa [List.getLast?_append, List.getLast?_cons] using fed

end

/-- A region that was not closed is no block: its closer would have closed it. -/
theorem shape?_of_open {raw : List Char}
    (never
      : ∀ front line behind, lines raw = front ++ line :: behind → ¬ Closes line behind)
    : shape? raw = none := by
  cases shaped : shape? raw with
  | none => rfl
  | some found =>
      obtain ⟨alt, body⟩ := found
      obtain ⟨_, ended, blanks, blank, rfl⟩ := shape?_eq_some_iff.mp shaped
      have fed : (opener ++ alt ++ ']' :: body).getLast? = some '\n' := by
        rw [List.append_cons, List.getLast?_append, ended]
        rfl
      obtain ⟨front, line, behind, cut, closes⟩ := exists_closes fed blank
      have same : opener ++ alt ++ ']' :: (body ++ closer ++ blanks)
          = opener ++ alt ++ ']' :: body ++ closer ++ blanks := by
        simp
      exact absurd closes (never front line behind (same ▸ cut))

/-- The last line of a region that was not closed is no closer. -/
theorem trimEnd_lastLine_ne {raw : List Char}
    (never
      : ∀ front line behind, lines raw = front ++ line :: behind → ¬ Closes line behind)
    : trimEnd (lastLine raw) ≠ closer := by
  intro closed
  rcases List.eq_nil_or_concat (lines raw) with empty | ⟨front, line, cut⟩
  · rw [lastLine, empty] at closed
    exact absurd closed (by decide)
  · rw [List.concat_eq_append] at cut
    rw [lastLine, cut, List.getLast?_concat, Option.getD_some] at closed
    exact never front line [] cut ⟨closed, rfl⟩

/-- A region that the scan found is a block if and only if it was closed and holds a bracket. The
body of the block is the text between the first bracket and the last line. A region that was not
closed runs to the end, and is reported as it is.
-/
theorem parse?_of_mem_parts [Transliteration] {body raw : List Char}
    (member : Part.latex raw ∈ parts body)
    : (trimEnd (lastLine raw) = closer →
        ((Block.parse? (String.ofList raw)).isSome = true ↔ ']' ∈ raw)
        ∧ ∀ block, Block.parse? (String.ofList raw) = some block →
            ∃ before, ']' ∉ before ∧ raw = before ++ ']' :: (block.body.toList ++ lastLine raw))
      ∧ (trimEnd (lastLine raw) ≠ closer →
        raw <:+ body
        ∧ ∀ renderer shop,
            compileRegion renderer (String.ofList raw) shop
              = (.error (.malformed (String.ofList raw)), shop)) := by
  rcases region_cases member with ⟨_, last, rfl, final, closed, fed, text, rfl⟩ | ⟨runs, never⟩
  · rw [final]
    refine ⟨fun _ => ⟨⟨fun parsed => ?_, fun bracket => ?_⟩, fun block parsed => ?_⟩,
      fun unclosed => absurd closed unclosed⟩
    · obtain ⟨block, parsed⟩ := Option.isSome_iff_exists.mp parsed
      obtain ⟨alt, shaped⟩ := exists_shape?_of_parse? parsed
      rw [(eq_of_shape?_closed closed shaped).2]
      simp
    · obtain ⟨alt, inner, shaped⟩ := exists_shape?_of_closed fed closed bracket
      rw [Option.isSome_iff_ne_none, Ne, parse?_eq_none_iff, shaped]
      exact Option.some_ne_none _
    · obtain ⟨alt, shaped⟩ := exists_shape?_of_parse? parsed
      obtain ⟨plain, cut⟩ := eq_of_shape?_closed closed shaped
      exact ⟨opener ++ alt, plain, by rw [cut]; simp⟩
  · refine ⟨fun closed => absurd closed (trimEnd_lastLine_ne never), fun _ => ⟨runs, ?_⟩⟩
    intro renderer shop
    simp only [compileRegion, parse?_eq_none_iff.mpr (shape?_of_open never)]
    rfl

/-- A body with a region that is closed behind a blank line and one that is not closed. -/
def twoRegions : List Char :=
  "\\begin\x7blatex\x7d[a\n\nb]]\n\\end\x7blatex\x7d\nx\n\n\\end\x7blatex\x7d \n\n".toList
    ++ "\\begin\x7blatex\x7d[c]\n".toList

/-- The first of them, whose first closer is a line of its body. -/
def closedRegion : List Char :=
  "\\begin\x7blatex\x7d[a\n\nb]]\n\\end\x7blatex\x7d\nx\n\n\\end\x7blatex\x7d \n".toList

/-- The second of them. -/
def openRegion : List Char := "\\begin\x7blatex\x7d[c]\n".toList

section

open scoped Publication.StandIns

/-- The first region is a block, and the second one is not. -/
theorem parse?_twoRegions
    : Part.latex closedRegion ∈ parts twoRegions
      ∧ trimEnd (lastLine closedRegion) = closer
      ∧ (Block.parse? (String.ofList closedRegion)).isSome = true
      ∧ Part.latex openRegion ∈ parts twoRegions
      ∧ trimEnd (lastLine openRegion) ≠ closer
      ∧ ∀ renderer shop,
          compileRegion renderer (String.ofList openRegion) shop
            = (.error (.malformed (String.ofList openRegion)), shop) := by
  have first : Part.latex closedRegion ∈ parts twoRegions := by decide +kernel
  have second : Part.latex openRegion ∈ parts twoRegions := by decide +kernel
  have closed : trimEnd (lastLine closedRegion) = closer := by decide +kernel
  have unclosed : trimEnd (lastLine openRegion) ≠ closer := by decide +kernel
  exact ⟨first, closed, ((parse?_of_mem_parts first).1 closed).1.mpr (by decide +kernel), second,
    unclosed, ((parse?_of_mem_parts second).2 unclosed).2⟩

end

end Publication.Latex
