import Publication.Proofs.Latex.FailedRegions
import Publication.Proofs.Latex.References
import Publication.Proofs.Latex.Regions
import Publication.Proofs.Text.Words

/-! The grammar of blocks. A region is a block if it is spelled in one way, which tells the text and
the body of the block; a region that is not is reported as it is.
-/

namespace Publication.Latex

open Publication.Text

-----------------------------------------------------------------------------------------
-- Spellings
-----------------------------------------------------------------------------------------

/-- How a block is spelled: the opener, a text up to the first bracket, a body of whole lines, the
closer, and blanks at most.
-/
structure Spells (alt body blanks raw : List Char) : Prop where
  whole : raw = opener ++ alt ++ ']' :: (body ++ closer ++ blanks)
  plain : ']' ∉ alt
  ended : body.getLast? = some '\n'
  blank : allBlank blanks = true

section

variable {alt body blanks raw : List Char}

theorem exists_spells_iff
    : (∃ blanks, Spells alt body blanks raw) ↔ shape? raw = some (alt, body) := by
  rw [shape?_eq_some_iff]
  constructor
  · rintro ⟨blanks, whole, plain, ended, blank⟩
    exact ⟨plain, ended, blanks, blank, whole⟩
  · rintro ⟨plain, ended, blanks, blank, whole⟩
    exact ⟨blanks, whole, plain, ended, blank⟩

/-- There is one way to spell a region. -/
theorem Spells.unique {alt' body' blanks' : List Char} (spells : Spells alt body blanks raw)
    (other : Spells alt' body' blanks' raw)
    : alt' = alt ∧ body' = body ∧ blanks' = blanks := by
  have shaped := exists_spells_iff.mp ⟨blanks, spells⟩
  have again := exists_spells_iff.mp ⟨blanks', other⟩
  cases shaped.symm.trans again
  have rest := List.append_cancel_left (spells.whole.symm.trans other.whole)
  have behind : body ++ closer ++ blanks = body ++ closer ++ blanks' := (List.cons.inj rest).2
  exact ⟨rfl, rfl, (List.append_cancel_left behind).symm⟩

end

-----------------------------------------------------------------------------------------
-- Blocks
-----------------------------------------------------------------------------------------

/-- What a block tells of the text and the body that are spelled: the body as it is, whether the
flag is among the words of the text, and the text without it.
-/
structure Tells (alt body : List Char) (block : Block) : Prop where
  body : block.body.toList = body
  asked : block.wantPdf = true ↔ IsWordOf pdfFlag alt
  trimmed : Trimmed block.alt.toList
  words : words block.alt.toList = (words alt).filter (· ≠ pdfFlag)
  bare : ¬ IsWordOf pdfFlag block.alt.toList
  kept : block.wantPdf = false → block.alt.toList = trim alt

/-- The words of the text of a block are those that are spelled, without the flag. -/
theorem words_withoutFlag (alt : List Char)
    : words (withoutFlag alt) = (words alt).filter (· ≠ pdfFlag) :=
  words_intercalate fun _ member => isWord_of_mem_words (List.mem_filter.mp member).1

/-- The mark of a preamble is one word, and not the flag. -/
theorem words_preambleAlt
    : words preambleAlt.toList = [preambleAlt.toList] ∧ preambleAlt.toList ≠ pdfFlag := by
  decide +kernel

theorem trim_preambleAlt : trim preambleAlt.toList = preambleAlt.toList := by
  decide +kernel

section

variable {alt body : List Char} {raw : String} {block : Block}

/-- The text that is shown has the words that are spelled without the flag, and the flag asks for
the document.
-/
theorem words_of_parse? (shaped : shape? raw.toList = some (alt, body))
    (parsed : Block.parse? raw = some block)
    : (block.wantPdf = true ↔ pdfFlag ∈ words alt)
      ∧ words block.alt.toList = (words alt).filter (· ≠ pdfFlag)
      ∧ (block.wantPdf = false → block.alt.toList = trim alt) := by
  simp only [Block.parse?, shaped, Option.map_some, Option.some.injEq] at parsed
  split at parsed
  next preamble =>
      subst parsed preamble
      obtain ⟨alone, other⟩ := words_preambleAlt
      simp [alone, other, Ne.symm other, trim_preambleAlt]
  next =>
      subst parsed
      simp only [String.toList_ofList]
      cases asked : (words alt).contains pdfFlag with
      | true =>
          refine ⟨iff_of_true rfl (List.contains_iff_mem.mp asked), words_withoutFlag alt, ?_⟩
          exact fun other => Bool.noConfusion other
      | false =>
          have absent : pdfFlag ∉ words alt := by
            rw [← List.contains_iff_mem, asked]
            exact Bool.false_ne_true
          have kept : (words alt).filter (· ≠ pdfFlag) = words alt := by
            refine List.filter_eq_self.mpr fun word member => decide_eq_true ?_
            exact fun same => absent (same ▸ member)
          refine ⟨iff_of_false Bool.false_ne_true absent, ?_, fun _ => rfl⟩
          rw [kept]
          exact words_trim alt

theorem tells_of_parse? (shaped : shape? raw.toList = some (alt, body))
    (parsed : Block.parse? raw = some block)
    : Tells alt body block := by
  obtain ⟨trimmed, _⟩ := trimmed_of_parse? parsed
  obtain ⟨asked, sameWords, kept⟩ := words_of_parse? shaped parsed
  have bodies : block.body.toList = body := by
    have text : Block.parse? (String.ofList raw.toList) = some block := by
      rwa [String.ofList_toList]
    obtain ⟨other, found⟩ := exists_shape?_of_parse? text
    cases shaped.symm.trans found
    rfl
  refine ⟨bodies, asked.trans mem_words_iff, trimmed, sameWords, fun flagged => ?_, kept⟩
  have member := mem_words_iff.mpr flagged
  rw [sameWords] at member
  simpa using (List.mem_filter.mp member).2

/-- A region is reported where it is no block, as it is, and nothing is done for it. -/
theorem compileRegion_malformed_iff [Transliteration] {renderer : Renderer} {text : String}
    {shop last : Workshop}
    : compileRegion renderer raw shop = (.error (.malformed text), last)
      ↔ Block.parse? raw = none ∧ text = raw ∧ last = shop := by
  constructor
  · intro ended
    cases failed_of_compileRegion ended with
    | malformed unparsed => exact ⟨unparsed, rfl, rfl⟩
  · rintro ⟨unparsed, rfl, rfl⟩
    simp only [compileRegion, unparsed]
    rfl

end

/-- A region is a block exactly if it can be spelled as one. There is one way to do so, and it gives
the body, the text without the flag, and whether a document is wanted. Any other region is reported
as it is.
-/
theorem parse?_grammar [Transliteration] (raw : String)
    : ((Block.parse? raw).isSome = true ↔ ∃ alt body blanks, Spells alt body blanks raw.toList)
      ∧ (∀ alt body blanks, Spells alt body blanks raw.toList →
          (∀ alt' body' blanks', Spells alt' body' blanks' raw.toList →
            alt' = alt ∧ body' = body ∧ blanks' = blanks)
          ∧ ∃ block, Block.parse? raw = some block ∧ Tells alt body block)
      ∧ ∀ renderer shop text last,
          compileRegion renderer raw shop = (.error (.malformed text), last)
          ↔ (¬ ∃ alt body blanks, Spells alt body blanks raw.toList)
            ∧ text = raw
            ∧ last = shop := by
  have accepted : (Block.parse? raw).isSome = true
      ↔ ∃ alt body blanks, Spells alt body blanks raw.toList := by
    rw [Block.parse?, Option.isSome_map, Option.isSome_iff_exists]
    simp only [exists_spells_iff, Prod.exists]
  refine ⟨accepted, fun alt body blanks spells => ⟨?_, ?_⟩, ?_⟩
  · exact fun _ _ _ other => spells.unique other
  · have shaped := exists_spells_iff.mp ⟨blanks, spells⟩
    obtain ⟨block, parsed⟩ := Option.isSome_iff_exists.mp (accepted.mpr ⟨alt, body, blanks, spells⟩)
    exact ⟨block, parsed, tells_of_parse? shaped parsed⟩
  · intro renderer shop text last
    rw [compileRegion_malformed_iff, ← accepted, Option.not_isSome_iff_eq_none]

/-- A region with a closer among the lines of its body and the flag among the words of its text. -/
def innerCloser : String :=
  "\\begin\x7blatex\x7d[A --pdf  plot]\n\\end\x7blatex\x7d\n\\end\x7blatex\x7d \n\n"

section

open scoped Publication.StandIns

/-- The last closer ends the region, and the flag is taken out of the text. -/
theorem parse?_grammar_innerCloser
    : Spells "A --pdf  plot".toList "\n\\end\x7blatex\x7d\n".toList " \n\n".toList
        innerCloser.toList
      ∧ Block.parse? innerCloser = some ⟨"A plot", "\n\\end\x7blatex\x7d\n", true⟩
      ∧ Tells "A --pdf  plot".toList "\n\\end\x7blatex\x7d\n".toList
          ⟨"A plot", "\n\\end\x7blatex\x7d\n", true⟩ := by
  have spells : Spells "A --pdf  plot".toList "\n\\end\x7blatex\x7d\n".toList " \n\n".toList
      innerCloser.toList :=
    ⟨by decide +kernel, by decide +kernel, by decide +kernel, by decide +kernel⟩
  have parsed : Block.parse? innerCloser
      = some ⟨"A plot", "\n\\end\x7blatex\x7d\n", true⟩ := by
    decide +kernel
  obtain ⟨_, spelled, _⟩ := parse?_grammar innerCloser
  obtain ⟨block, again, tells⟩ := (spelled _ _ _ spells).2
  cases parsed.symm.trans again
  exact ⟨spells, parsed, tells⟩

end

end Publication.Latex
