import Mathlib.Data.List.Chain
import Publication.Proofs.Latex.FencedRegions

/-! The parts of a body. The scan cuts a body between its lines into markdown and regions by turns,
and each part is cut in the same way when it stands alone.
-/

namespace Publication.Latex

open Publication.Text

-----------------------------------------------------------------------------------------
-- Lines that are passed as markdown
-----------------------------------------------------------------------------------------

/-- Lines at the start of a body that the scan passes as markdown, the fence that it keeps behind
them, and whether it takes the next line as standing behind a blank line.
-/
inductive Passed : List (List Char) → Option (List Char) → Bool → Prop
  | nil : Passed [] none true
  | concat {front : List (List Char)} {line : List Char} {fence : Option (List Char)}
      {afterBlank : Bool}
      (before : Passed front fence afterBlank)
      (passes : ¬ StartsRegion fence afterBlank line)
      : Passed (front ++ [line]) (scanLine fence line) (leavesBlank fence line)

section

variable {text : List (List Char)} {fence : Option (List Char)} {afterBlank : Bool}

/-- Lines that are passed are pending behind them, by induction on them. -/
theorem Passed.scanLines_append (passed : Passed text fence afterBlank)
    (rest : List (List Char))
    : scanLines {} 0 (text ++ rest) = scanLines ⟨fence, afterBlank, text.reverse⟩ 0 rest := by
  induction passed generalizing rest with
  | nil => rfl
  | concat _ passes ih =>
      rw [List.append_assoc, ih, List.singleton_append, scanLines_zero, if_neg passes,
        List.reverse_append]
      rfl

/-- Lines that are passed are one part of their own. -/
theorem Passed.scanLines_eq (passed : Passed text fence afterBlank) (filled : text ≠ [])
    : scanLines {} 0 text = [.markdown text.flatten] := by
  have pending := passed.scanLines_append []
  rw [List.append_nil] at pending
  rw [pending]
  simp [scanLines, Scan.flush, filled]

/-- A region may start on the first line. -/
theorem Passed.open_of_nil (passed : Passed [] fence afterBlank) : afterBlank = true := by
  generalize none_yet : [] = text at passed
  cases passed with
  | nil => rfl
  | concat => simp at none_yet

/-- Where a region may start, the line before is blank, or there is none. -/
theorem Passed.exists_blank (passed : Passed text fence afterBlank) (allowed : afterBlank = true)
    (filled : text ≠ [])
    : ∃ above line, text = above ++ [line] ∧ allBlank line = true := by
  cases passed with
  | nil => exact absurd rfl filled
  | concat before passes =>
      simp only [leavesBlank, Bool.and_eq_true] at allowed
      exact ⟨_, _, rfl, allowed.2⟩

end

-----------------------------------------------------------------------------------------
-- Lines of a region
-----------------------------------------------------------------------------------------

/-- Lines that begin with the opener and are a region as a whole. -/
structure IsRegion (region : List (List Char)) : Prop where
  begins : ∃ text inner, region = (opener ++ text) :: inner
  length : regionLength region = region.length

/-- What is cut off as a region is one as a whole, by induction on the lines. -/
theorem regionLength_take (found : List (List Char))
    : regionLength (found.take (regionLength found)) = regionLength found := by
  induction found with
  | nil => rfl
  | cons line rest ih =>
      have ahead : (rest.take (regionLength rest)).head? = rest.head? := by
        cases rest with
        | nil => rfl
        | cons next others =>
            obtain ⟨n, length⟩ := Nat.exists_eq_add_of_le' (regionLength_pos next others)
            rw [length]
            rfl
      rw [regionLength]
      split
      next closes =>
          simp only [Bool.and_eq_true, decide_eq_true_eq] at closes
          simp [regionLength, closes.1]
      next goesOn => rw [List.take_succ_cons, regionLength, ahead, if_neg goesOn, ih]

theorem regionLength_le (found : List (List Char)) : regionLength found ≤ found.length := by
  rcases regionLength_cases found with ⟨front, line, behind, rfl, _, length⟩ | ⟨length, _⟩
  · rw [length, List.length_append, List.length_cons]
    omega
  · exact Nat.le_of_eq length

theorem isRegion_take (text : List Char) (rest : List (List Char))
    : IsRegion (((opener ++ text) :: rest).take (regionLength ((opener ++ text) :: rest))) where
  begins := by
    obtain ⟨n, length⟩ :=
      Nat.exists_eq_add_of_le' (regionLength_pos (opener ++ text) rest)
    exact ⟨text, rest.take n, by rw [length, List.take_succ_cons]⟩
  length := by
    rw [regionLength_take, List.length_take, Nat.min_eq_left (regionLength_le _)]

/-- Behind a region stands a blank line, or nothing. -/
theorem allBlank_drop_regionLength (found : List (List Char))
    : ∀ line ∈ (found.drop (regionLength found)).head?, allBlank line = true := by
  intro line member
  rcases regionLength_cases found with ⟨front, last, behind, rfl, closes, length⟩ | ⟨length, _⟩
  · have behind : (front ++ last :: behind).drop (front.length + 1) = behind := by simp
    rw [length, behind] at member
    have blank := closes.2
    rwa [Option.mem_def.mp member] at blank
  · rw [length, List.drop_length] at member
    cases member

/-- The lines of a region are skipped, by induction on the lines. -/
theorem scanLines_skip (scan : Scan) (skip : Nat) (found : List (List Char))
    : scanLines scan skip found = scanLines scan 0 (found.drop skip) := by
  induction found generalizing skip with
  | nil => cases skip <;> simp [scanLines]
  | cons line rest ih =>
      cases skip with
      | zero => rfl
      | succ skip => exact ih skip

/-- A blank line starts no region. -/
theorem not_startsRegion_of_allBlank {fence : Option (List Char)} {afterBlank : Bool}
    {line : List Char} (blank : allBlank line = true)
    : ¬ StartsRegion fence afterBlank line := by
  rintro ⟨_, _, _, opens⟩
  obtain ⟨text, stripped⟩ := Option.isSome_iff_exists.mp opens
  obtain rfl := strip?_eq_some_iff.mp stripped
  rw [allBlank, List.all_append, Bool.and_eq_true] at blank
  exact absurd blank.1 (by decide)

/-- A line with the opener starts a region where one may start. -/
theorem startsRegion_opener (text : List Char) : StartsRegion none true (opener ++ text) := by
  refine ⟨rfl, fence?_opener_append text, rfl, ?_⟩
  rw [strip?_eq_some_iff.mpr rfl]
  rfl

/-- Behind a region the scan goes on as at the start of a body, since a blank line starts no region
in either case.
-/
theorem scanLines_behind {found : List (List Char)}
    (blank : ∀ line ∈ found.head?, allBlank line = true)
    : scanLines ⟨none, false, []⟩ 0 found = scanLines {} 0 found := by
  cases found with
  | nil => rfl
  | cons line rest =>
      have passes {afterBlank : Bool} : ¬ StartsRegion none afterBlank line :=
        not_startsRegion_of_allBlank (blank line rfl)
      rw [scanLines_zero, if_neg passes, scanLines_zero, if_neg passes]

/-- Where a region starts, what is pending is handed out, then the region, and the scan begins anew.
-/
theorem scanLines_region {scan : Scan} {line : List Char} (rest : List (List Char))
    (starts : StartsRegion scan.fence scan.afterBlank line)
    : scanLines scan 0 (line :: rest)
      = scan.flush
        ++ .latex ((line :: rest).take (regionLength (line :: rest))).flatten
          :: scanLines {} 0 ((line :: rest).drop (regionLength (line :: rest))) := by
  have edge := allBlank_drop_regionLength (line :: rest)
  rw [scanLines_zero, if_pos starts, scanLines_skip]
  obtain ⟨more, length⟩ := Nat.exists_eq_add_of_le' (regionLength_pos line rest)
  rw [length, List.drop_succ_cons] at edge
  rw [length, List.take_succ_cons, List.drop_succ_cons, Nat.add_sub_cancel, scanLines_behind edge]

/-- A region is one part of its own. -/
theorem IsRegion.scanLines_eq {region : List (List Char)} (isRegion : IsRegion region)
    : scanLines {} 0 region = [.latex region.flatten] := by
  obtain ⟨⟨text, inner, rfl⟩, length⟩ := isRegion
  rw [scanLines_region inner (startsRegion_opener text), length, List.take_length, List.drop_length]
  rfl

-----------------------------------------------------------------------------------------
-- Lines that are cut into parts
-----------------------------------------------------------------------------------------

def Part.isLatex : Part → Bool
  | .markdown _ => false
  | .latex _ => true

/-- Lines cut into parts. The flag tells whether a region may start on the first line: markdown
stands behind a region, and a region where the markdown before it lets it start.
-/
inductive Cuts : Bool → List (List Char) → List Part → Prop
  | nil {start : Bool} : Cuts start [] []
  | markdown {start afterBlank : Bool} {text rest : List (List Char)}
      {fence : Option (List Char)} {parts : List Part}
      (filled : text ≠ [])
      (passed : Passed text fence afterBlank)
      (next : ∀ part ∈ parts.head?, part.isLatex = true)
      (others : Cuts afterBlank rest parts)
      : Cuts start (text ++ rest) (.markdown text.flatten :: parts)
  | region {region rest : List (List Char)} {parts : List Part}
      (isRegion : IsRegion region)
      (others : Cuts false rest parts)
      : Cuts true (region ++ rest) (.latex region.flatten :: parts)

/-- Where a blank line comes first, no region starts. -/
theorem Cuts.of_blank {start : Bool} {found : List (List Char)} {cut : List Part}
    (cuts : Cuts start found cut) (blank : ∀ line ∈ found.head?, allBlank line = true)
    (other : Bool)
    : Cuts other found cut := by
  cases cuts with
  | nil => exact .nil
  | markdown filled passed next others => exact .markdown filled passed next others
  | region isRegion others =>
      obtain ⟨⟨text, inner, rfl⟩, _⟩ := isRegion
      exact absurd (startsRegion_opener text) (not_startsRegion_of_allBlank (blank _ rfl))

/-- What is pending is handed out as the markdown before other parts, unless nothing is. -/
theorem Cuts.flush {start afterBlank : Bool} {fence : Option (List Char)}
    {pending rest : List (List Char)} {parts : List Part}
    (passed : Passed pending.reverse fence afterBlank) (allowed : pending = [] → start = true)
    (next : ∀ part ∈ parts.head?, part.isLatex = true) (others : Cuts afterBlank rest parts)
    : Cuts start (pending.reverse ++ rest)
        (Scan.flush ⟨fence, afterBlank, pending⟩ ++ parts) := by
  by_cases empty : pending = []
  · subst empty
    rw [allowed rfl]
    exact passed.open_of_nil ▸ others
  · have whole : Cuts start (pending.reverse ++ rest) (.markdown _ :: parts) :=
      .markdown (by simpa using empty) passed next others
    simpa [Scan.flush, empty] using whole

/-- The scan cuts lines into parts. What is pending was passed; if nothing is, a region may start.
By induction on the number of lines, since a region takes several.
-/
theorem cuts_scanLines {start afterBlank : Bool} {fence : Option (List Char)}
    {pending found : List (List Char)} (passed : Passed pending.reverse fence afterBlank)
    (allowed : pending = [] → start = true)
    : Cuts start (pending.reverse ++ found) (scanLines ⟨fence, afterBlank, pending⟩ 0 found) := by
  induction length : found.length using Nat.strongRecOn
    generalizing found pending fence afterBlank start with
  | ind n ih =>
      subst length
      cases found with
      | nil =>
          have cut : Cuts start (pending.reverse ++ []) (Scan.flush _ ++ []) :=
            Cuts.flush passed allowed nofun .nil
          rwa [List.append_nil (Scan.flush _)] at cut
      | cons line rest =>
          by_cases starts : StartsRegion fence afterBlank line
          · rw [scanLines_region rest starts]
            refine Cuts.flush passed allowed (by simp [Part.isLatex]) ?_
            obtain ⟨rfl, _, rfl, opens⟩ := starts
            obtain ⟨text, stripped⟩ := Option.isSome_iff_exists.mp opens
            obtain rfl := strip?_eq_some_iff.mp stripped
            have fewer : (((opener ++ text) :: rest).drop
                (regionLength ((opener ++ text) :: rest))).length < rest.length + 1 := by
              have taken := regionLength_pos (opener ++ text) rest
              rw [List.length_drop, List.length_cons]
              omega
            have others : Cuts true ([].reverse ++ _) _ := ih _ fewer .nil (fun _ => rfl) rfl
            have behind := others.of_blank (allBlank_drop_regionLength _) false
            have cut := Cuts.region (isRegion_take text rest) behind
            rwa [List.reverse_nil, List.nil_append, List.take_append_drop] at cut
          · have next : Passed (line :: pending).reverse (scanLine fence line)
                (leavesBlank fence line) := by
              rw [List.reverse_cons]
              exact passed.concat starts
            have cut : Cuts start ((line :: pending).reverse ++ rest) _ :=
              ih rest.length (Nat.lt_succ_self _) next nofun rfl
            rw [scanLines_zero, if_neg starts]
            simpa using cut

/-- A body is cut into its parts. -/
theorem cuts_parts (body : List Char) : Cuts true (lines body) (parts body) :=
  @cuts_scanLines true true none [] (lines body) .nil fun _ => rfl

section

variable {start : Bool} {found : List (List Char)} {cut : List Part}

/-- Nothing is lost. -/
theorem Cuts.flatMap_text (cuts : Cuts start found cut)
    : cut.flatMap Part.text = found.flatten := by
  induction cuts with
  | nil => rfl
  | markdown _ _ _ _ ih => rw [List.flatMap_cons, ih, List.flatten_append]; rfl
  | region _ _ ih => rw [List.flatMap_cons, ih, List.flatten_append]; rfl

/-- Markdown and regions take turns. -/
theorem Cuts.isChain (cuts : Cuts start found cut)
    : cut.IsChain fun part next => part.isLatex ≠ next.isLatex := by
  induction cuts with
  | nil => exact .nil
  | markdown _ _ next _ ih =>
      refine List.isChain_cons.mpr ⟨fun part member => ?_, ih⟩
      rw [next part member]
      nofun
  | region _ others ih =>
      refine List.isChain_cons.mpr ⟨fun part member => ?_, ih⟩
      cases others with
      | nil => cases member
      | markdown => cases member; nofun

theorem Cuts.ne_nil (cuts : Cuts start found cut) (filled : cut ≠ []) : found ≠ [] := by
  cases cuts with
  | nil => exact absurd rfl filled
  | markdown own => simp [own]
  | region isRegion =>
      obtain ⟨⟨_, _, rfl⟩, _⟩ := isRegion
      simp

/-- Parts are not empty. -/
theorem Cuts.text_ne_nil (cuts : Cuts start found cut) (areLines : AreLines found)
    : ∀ part ∈ cut, part.text ≠ [] := by
  have flatten_ne {front back : List (List Char)} (filled : front ≠ [])
      (whole : AreLines (front ++ back)) : front.flatten ≠ [] := by
    intro empty
    have none := whole.take.lines_flatten
    rw [empty] at none
    exact filled none.symm
  induction cuts with
  | nil => exact List.forall_mem_nil _
  | markdown filled _ _ _ ih =>
      exact List.forall_mem_cons.mpr ⟨flatten_ne filled areLines, ih areLines.drop⟩
  | region isRegion _ ih =>
      refine List.forall_mem_cons.mpr ⟨flatten_ne ?_ areLines, ih areLines.drop⟩
      obtain ⟨⟨_, _, rfl⟩, _⟩ := isRegion
      exact List.cons_ne_nil _ _

/-- Each part is cut as a body of its own into nothing but itself. -/
theorem Cuts.parts_text (cuts : Cuts start found cut) (areLines : AreLines found)
    : ∀ part ∈ cut, parts part.text = [part] := by
  induction cuts with
  | nil => exact List.forall_mem_nil _
  | markdown filled passed _ _ ih =>
      refine List.forall_mem_cons.mpr ⟨?_, ih areLines.drop⟩
      rw [Part.text, parts, areLines.take.lines_flatten, passed.scanLines_eq filled]
  | region isRegion _ ih =>
      refine List.forall_mem_cons.mpr ⟨?_, ih areLines.drop⟩
      rw [Part.text, parts, areLines.take.lines_flatten, isRegion.scanLines_eq]

/-- Text before which a region is to stand: it ends in a line feed, and its last line is blank. -/
def EndsBlank (text : List Char) : Prop :=
  text.getLast? = some '\n' ∧ allBlank (lastLine text) = true

/-- Only the last line of a text that stands behind others tells how the text ends. -/
theorem EndsBlank.append {front back : List Char} (ended : front.getLast? = some '\n')
    (blank : EndsBlank back)
    : EndsBlank (front ++ back) := by
  obtain ⟨feed, last⟩ := blank
  refine ⟨by rw [List.getLast?_append, feed]; rfl, ?_⟩
  cases cut : lines back with
  | nil =>
      rw [← flatten_lines back, cut] at feed
      cases feed
  | cons line rest =>
      rw [lastLine, lines_append ended, List.getLast?_append]
      rw [lastLine] at last
      rw [cut, List.getLast?_cons] at last ⊢
      exact last

/-- Lines before others end in a line feed. -/
theorem getLast?_flatten_append {front back : List (List Char)} (filled : front ≠ [])
    (more : back ≠ []) (areLines : AreLines (front ++ back))
    : front.flatten.getLast? = some '\n' := by
  obtain ⟨next, rest, rfl⟩ := List.exists_cons_of_ne_nil more
  rw [List.append_cons] at areLines
  exact getLast?_flatten_of_areLines filled areLines.take

/-- Each region begins with the opener, and stands behind a blank line or at the start. -/
theorem Cuts.region_stands (cuts : Cuts start found cut) (areLines : AreLines found)
    {front back : List Part} {raw : List Char} (whole : cut = front ++ .latex raw :: back)
    : opener <+: raw
      ∧ (front = [] ∧ start = true ∨ EndsBlank (front.flatMap Part.text)) := by
  induction cuts generalizing front with
  | nil => simp at whole
  | markdown filled passed _ others ih =>
      cases front with
      | nil => simp at whole
      | cons part front =>
          obtain ⟨rfl, behind⟩ := List.cons.inj whole
          obtain ⟨begins, place⟩ := ih areLines.drop behind
          have ends := getLast?_flatten_append filled (others.ne_nil (by simp [behind])) areLines
          refine ⟨begins, .inr ?_⟩
          rcases place with ⟨rfl, allowed⟩ | blank
          · obtain ⟨above, line, rfl, blank⟩ := passed.exists_blank allowed filled
            have last := lastLine_append areLines.take
            simp only [List.flatMap_cons, List.flatMap_nil, List.append_nil, Part.text]
            exact ⟨ends, by rw [last]; exact blank⟩
          · exact blank.append ends
  | region isRegion others ih =>
      cases front with
      | nil =>
          obtain ⟨same, _⟩ := List.cons.inj whole
          obtain ⟨⟨text, inner, rfl⟩, _⟩ := isRegion
          cases same
          exact ⟨⟨text ++ inner.flatten, by simp⟩, .inl ⟨rfl, rfl⟩⟩
      | cons part front =>
          obtain ⟨rfl, behind⟩ := List.cons.inj whole
          obtain ⟨begins, place⟩ := ih areLines.drop behind
          refine ⟨begins, .inr ?_⟩
          rcases place with ⟨_, never⟩ | blank
          · cases never
          · obtain ⟨⟨_, _, rfl⟩, _⟩ := isRegion
            have more := others.ne_nil (by simp [behind])
            exact blank.append (getLast?_flatten_append (List.cons_ne_nil _ _) more areLines)

end

/-- The parts of a body put together are the body, and none of them is empty. Markdown and regions
take turns; a region begins with the opener, and stands at the start or behind a blank line. Each
part is the only part of its own text.
-/
theorem parts_lossless_stable (body : List Char)
    : (parts body).flatMap Part.text = body
      ∧ (∀ part ∈ parts body, part.text ≠ [])
      ∧ ((parts body).IsChain fun part next => part.isLatex ≠ next.isLatex)
      ∧ (∀ front raw back,
          parts body = front ++ .latex raw :: back →
            opener <+: raw ∧ (front = [] ∨ EndsBlank (front.flatMap Part.text)))
      ∧ ∀ part ∈ parts body, parts part.text = [part] := by
  have cuts := cuts_parts body
  have areLines := areLines_lines body
  refine ⟨cuts.flatMap_text.trans (flatten_lines body), cuts.text_ne_nil areLines, cuts.isChain,
    fun front raw back whole => ?_, cuts.parts_text areLines⟩
  obtain ⟨begins, place⟩ := cuts.region_stands areLines whole
  exact ⟨begins, place.imp_left And.left⟩

end Publication.Latex
