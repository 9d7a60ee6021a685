import Publication.Document.Parser
import Publication.Document.Resources
import Publication.Proofs.Document.Growing
import Publication.Proofs.Latex.EscapedLines
import Publication.Proofs.Latex.Recompilation
import Publication.Proofs.Latex.Sketch
import Publication.Text.Transliteration.Table

/-! The markdown that stands in for a compiled block. Its text is escaped, so it is read as one
paragraph with the image in it and nothing else. Only a blank line in the text ends the paragraph
before, and then there is no image.
-/

namespace Publication.Latex

open Publication.Text Publication.Naming Publication.Image Publication.Markdown
  Publication.Document
open Publication.Markdown.Token (Escaped InWord)

-----------------------------------------------------------------------------------------
-- Alternative text
-----------------------------------------------------------------------------------------

/-- The text of a block has no blank at either end, and is one line where a document is wanted. -/
theorem trimmed_of_parse? {raw : String} {block : Block} (parsed : Block.parse? raw = some block)
    : Trimmed block.alt.toList
      ∧ (block.wantPdf = true → ∀ c ∈ block.alt.toList, isBreak c = false) := by
  obtain ⟨⟨alt, body⟩, _, made⟩ := Option.map_eq_some_iff.mp parsed
  dsimp only at made
  split at made
  · subst made
    have solid : (preambleAlt.toList.all fun c => !isBlank c) = true := by decide +kernel
    have isWord : IsWord preambleAlt.toList := by
      refine ⟨by decide +kernel, fun c member => ?_⟩
      simpa using List.all_eq_true.mp solid c member
    exact ⟨isWord.trimmed, fun wanted => by cases wanted⟩
  · subst made
    simp only [String.toList_ofList]
    split
    next wanted =>
        obtain ⟨trimmed, plain⟩ := @trimmed_intercalate ((words alt).filter (· ≠ pdfFlag))
          fun word member => isWord_of_mem_words (List.mem_filter.mp member).1
        refine ⟨trimmed, fun _ c member => ?_⟩
        rcases plain c member with rfl | shown
        · rfl
        · exact (shown_of_not_blank shown).2
    next bare => exact ⟨trimmed_trim alt, fun wanted => absurd wanted bare⟩

/-- The text of a block for which a document is wanted has no blank line. -/
theorem unbroken_of_wantPdf {raw : String} {block : Block} (parsed : Block.parse? raw = some block)
    (wanted : block.wantPdf = true)
    : Unbroken (Line.ofText block.alt.toList) :=
  unbroken_of_trimmed (trimmed_of_parse? parsed).1 ((trimmed_of_parse? parsed).2 wanted)

-----------------------------------------------------------------------------------------
-- References
-----------------------------------------------------------------------------------------

/-- The node of an image. -/
def imageNode (src alt : String) : Node where
  kind := .image
  attrs := [("src", src), ("alt", alt), ("title", "")]

/-- The tree of a paragraph. -/
def paragraphOf (node : Node) : Node where
  kind := .document
  children := [{ kind := .paragraph, children := [node] }]

/-- The node of a link around another one. -/
def linkNode (href : String) (inner : Node) : Node where
  kind := .link false
  attrs := [("href", href), ("title", "")]
  children := [inner]

section

variable {alt : String} {dest outer : List Char}

theorem trails_targetText (word : ∀ c ∈ dest, InWord c) {t : List Char} (trails : Trails t)
    : Trails (Token.targetText dest t) := by
  intro c member
  simp only [Token.targetText, List.mem_cons, List.mem_append] at member
  rcases member with rfl | rfl | inside | rfl | rfl | behind
  · decide
  · decide
  · refine ⟨(word c inside).plain.2.2.2.2, ?_⟩
    rintro rfl
    exact absurd (word _ inside) (by decide)
  · decide
  · decide
  · exact trails c behind

/-- The text of an image or a link around one is one paragraph, if no line of its alternative text
is blank.
-/
theorem ofText_reference {mark behind : List Char} (begins : ∀ t, BeginsImage (mark ++ t))
    (inLine : ∀ c ∈ mark, isBreak c = false) (trails : Trails behind)
    (trimmed : Trimmed alt.toList) (unbroken : Unbroken (Line.ofText alt.toList))
    : Outline.ofText (mark ++ (escapeChars alt.toList ++ ']' :: (behind ++ ['\n'])))
      = ⟨[.paragraph false none (mark ++ (escapeChars alt.toList ++ ']' :: behind))], [], []⟩ := by
  obtain ⟨line, rest, cut, same⟩ := exists_cut_of_trimmed trails trimmed
  have goOn : ∀ other ∈ rest, other.GoesOn := fun other member =>
    ⟨cut.tame other (List.mem_cons_of_mem _ member), same.mp unbroken other member⟩
  rw [ofText_of_beginsImage (cut.ofText inLine) (begins line.text) goOn, Reader.joinLines_append,
    cut.joined]

/-- A document of one paragraph with one element in it. -/
theorem parse_of_ofText {markdown : String} {source : List Char} {inline : Inline}
    (outline : Outline.ofText markdown.toList = ⟨[.paragraph false none source], [], []⟩)
    (inner : Inline.ofText ⟨[], []⟩ source = [inline])
    : Document.parse markdown
      = { kind := .document,
          children := (nodesOf ⟨[], 0⟩ [.container .paragraph [inline.element]]).1 } := by
  have events : Markdown.events markdown
      = Element.eventsAll [.container .paragraph [inline.element]] := by
    have bare : Outline.references ⟨[.paragraph false none source], [], []⟩ = ⟨[], []⟩ := rfl
    simp [Markdown.events, outline, bare, Block.eventsAll, Block.events, inner, Element.eventsAll,
      Element.events, Inline.events_element, Inline.eventsAll]
  rw [Document.parse, events, ofEvents_eventsAll]

/-- The text of an image is a document of that image. -/
theorem exists_parse_image (word : ∀ c ∈ dest, InWord c) (trimmed : Trimmed alt.toList)
    (unbroken : Unbroken (Line.ofText alt.toList)) {markdown : String}
    (text : markdown.toList = imageText (escapeChars alt.toList) dest [] ++ ['\n'])
    : ∃ shown, Document.parse markdown = paragraphOf (imageNode (String.ofList dest) shown) := by
  have outline := @ofText_reference alt ['!', '['] _ (fun t => ⟨'[' :: t, .inl rfl⟩)
    (by simp [isBreak]) (trails_targetText word trails_nil) trimmed unbroken
  rw [← imageText_append, ← text] at outline
  obtain ⟨inner, only⟩ := exists_ofText_image (escaped_escapeChars alt.toList) word ⟨[], []⟩
  rw [parse_of_ofText outline only]
  exact ⟨_, rfl⟩

/-- The text of an image is a document without one, if a line of its alternative text is blank. -/
theorem imageless_parse (word : ∀ c ∈ dest, InWord c) (trimmed : Trimmed alt.toList)
    (broken : ¬ Unbroken (Line.ofText alt.toList)) {markdown : String}
    (text : markdown.toList = imageText (escapeChars alt.toList) dest [] ++ ['\n'])
    : (Document.parse markdown).Imageless := by
  have trails := trails_targetText word trails_nil
  obtain ⟨line, rest, cut, same⟩ := exists_cut_of_trimmed trails trimmed
  obtain ⟨blank, member, empty⟩ : ∃ blank ∈ rest, isBlankRest blank.text = true := by
    simpa [Unbroken] using mt same.mpr broken
  have lines := @Cut.ofText _ _ _ _ ['!', '['] cut (by simp [isBreak])
  rw [← imageText_append, ← text] at lines
  have plain := imageless_of_blank lines cut.escaped (cut.still trails) member empty
  exact imageless_ofEvents (Markdown.Block.imageless_eventsAll plain _)

/-- The text of an image in a link is a document of that image in that link. -/
theorem exists_parse_link (word : ∀ c ∈ dest, InWord c) (outerWord : ∀ c ∈ outer, InWord c)
    (trimmed : Trimmed alt.toList) (unbroken : Unbroken (Line.ofText alt.toList))
    {markdown : String}
    (text
      : markdown.toList
        = '[' :: imageText (escapeChars alt.toList) dest (']' :: Token.targetText outer [])
          ++ ['\n'])
    : ∃ shown,
        Document.parse markdown
        = paragraphOf
            (linkNode (String.ofList outer) (imageNode (String.ofList dest) shown)) := by
  have ended : Trails (']' :: Token.targetText outer []) :=
    List.forall_mem_cons.mpr ⟨by decide, trails_targetText outerWord trails_nil⟩
  have outline := @ofText_reference alt ['[', '!', '['] _ (fun t => ⟨t, .inr rfl⟩)
    (by simp [isBreak]) (trails_targetText word ended) trimmed unbroken
  have whole : markdown.toList
      = ['[', '!', '[']
        ++ (escapeChars alt.toList
          ++ ']' :: (Token.targetText dest (']' :: Token.targetText outer []) ++ ['\n'])) := by
    rw [text]
    simp [imageText]
  rw [← whole] at outline
  obtain ⟨inner, only⟩ :=
    exists_ofText_link (escaped_escapeChars alt.toList) word outerWord ⟨[], []⟩
  rw [parse_of_ofText outline only]
  exact ⟨_, rfl⟩

end

-----------------------------------------------------------------------------------------
-- Addresses
-----------------------------------------------------------------------------------------

theorem inWord_of_isAlphanum {c : Char} (plain : c.isAlphanum = true) : InWord c := by
  have range : (48 ≤ c.toNat ∧ c.toNat ≤ 57) ∨ (65 ≤ c.toNat ∧ c.toNat ≤ 90)
      ∨ (97 ≤ c.toNat ∧ c.toNat ≤ 122) := by
    rcases Bool.or_eq_true_iff.mp plain with letter | digit
    · rcases Bool.or_eq_true_iff.mp letter with capital | small
      · exact .inr (.inl (of_decide_eq_true capital))
      · obtain ⟨least, most⟩ := Bool.and_eq_true_iff.mp small
        exact .inr (.inr ⟨of_decide_eq_true least, of_decide_eq_true most⟩)
    · obtain ⟨least, most⟩ := Bool.and_eq_true_iff.mp digit
      exact .inl ⟨of_decide_eq_true least, of_decide_eq_true most⟩
  have letter : isAsciiPunctuation c = false := by
    simp only [isAsciiPunctuation, Bool.or_eq_false_iff, Bool.and_eq_false_iff,
      decide_eq_false_iff_not]
    omega
  have inLine : isBreak c = false := by
    simp only [isBreak, Bool.or_eq_false_iff, beq_eq_false_iff_ne]
    constructor
    · rintro rfl
      cases plain
    · rintro rfl
      cases plain
  refine .inl ⟨Token.isCalm_of_not_punctuation letter inLine, ?_⟩
  rintro rfl
  cases plain

/-- The reference to a file that goes among the images. -/
def addressOf (file : String) : String := Path.scheme ++ file

/-- The addresses of the files of an image are such as are read as they are written. -/
theorem inWord_of_mem_addressOf [Transliteration] {alt ending : String} {taken : List String}
    (known : ending = ".png" ∨ ending = ".pdf")
    : ∀ c ∈ (addressOf (unique (imageBase alt) taken ++ ending)).toList, InWord c := by
  intro c member
  simp only [addressOf, String.toList_append, List.mem_append] at member
  rcases member with scheme | id | file
  · have plain : (Path.scheme.toList.all fun d => decide (InWord d)) = true := by decide +kernel
    exact of_decide_eq_true (List.all_eq_true.mp plain c scheme)
  · rcases mem_unique_imageBase id with plain | rfl | rfl
    · exact inWord_of_isAlphanum plain
    · exact .inr rfl
    · exact .inl (by decide)
  · have plain : ((".png".toList ++ ".pdf".toList).all fun d => decide (InWord d)) = true := by
      decide +kernel
    refine of_decide_eq_true (List.all_eq_true.mp plain c (List.mem_append.mpr ?_))
    rcases known with rfl | rfl
    · exact .inl file
    · exact .inr file

theorem ofReference?_addressOf (file : String) (dir : Path)
    : Path.ofReference? (addressOf file) dir = some (dir.child file) := by
  have stripped : strip? Path.scheme.toList (addressOf file).toList = some file.toList :=
    strip?_eq_some_iff.mpr String.toList_append
  rw [Path.ofReference?, stripped, Option.map_some, String.ofList_toList]
  rfl

-----------------------------------------------------------------------------------------
-- Blocks in a document
-----------------------------------------------------------------------------------------

/-- What a document shows of a block: its one image, in a link to the typeset document if that is
wanted. These files are published, and the image refers to the one of them that is its own.
-/
structure Shows [Transliteration] (compiler : Compiler) (block : Block) (document : Node)
    : Prop where
  image
    : ∃ image,
        document.findAll (·.kind = .image) = [image]
        ∧ image.attr? "src" = some (addressOf (compiler.nextId block.alt ++ ".png"))
        ∧ (block.wantPdf = true
            → ∃ link ∈ document.preorder,
                link.kind = .link false
                ∧ link.attr? "href" = some (addressOf (compiler.nextId block.alt ++ ".pdf"))
                ∧ link.children = [image])
  published
    : ∀ directory,
        ∃ resource shown,
          let (manifest, published) := extractResources document directory compiler.baseDir
          resource.source = compiler.pngFor block
          ∧ manifest.entries.map (·.source) = (compiler.pdfFor block).toList ++ [resource.source]
          ∧ manifest.entries.getLast? = some resource
          ∧ published.findAll (·.kind = .image) = [shown]
          ∧ shown.attr? "src" = some resource.target

section

variable {compiler : Compiler} {block : Block} {shown : String}

theorem Compiler.pathOf_of_flat (flat : compiler.imageDir = ".") (file : String)
    : compiler.pathOf file = compiler.baseDir.child file := by
  simp [pathOf, relative, flat]

/-- The image at a file is redirected to where the file is published. -/
theorem revise_imageNode (dir : Path) (m : Manifest) (file : String)
    : (imageNode (addressOf file) shown).revise (Manifest.visit dir) m
      = (imageNode (m.claim (dir.child file) false).1 shown,
          (m.claim (dir.child file) false).2) := by
  simp [imageNode, Node.revise, Node.reviseAll, Manifest.visit, localFile?, referenceKey?,
    Node.attr?, ofReference?_addressOf, Node.setAttr, Node.setAttrIn]

/-- A link to a file is redirected to where the file is published, before what is in it. -/
theorem revise_linkNode (dir : Path) (m : Manifest) (file : String) (inner : Node)
    : (linkNode (addressOf file) inner).revise (Manifest.visit dir) m
      = (linkNode (m.claim (dir.child file) false).1
            (inner.revise (Manifest.visit dir) (m.claim (dir.child file) false).2).1,
          (inner.revise (Manifest.visit dir) (m.claim (dir.child file) false).2).2) := by
  simp [linkNode, Node.revise, Node.reviseAll, Manifest.visit, localFile?, referenceKey?,
    Node.attr?, ofReference?_addressOf, Node.setAttr, Node.setAttrIn]

/-- The resources of a document of one paragraph are those of what is in it. -/
theorem extractResources_paragraphOf (node : Node) (directory : String) (dir : Path)
    : extractResources (paragraphOf node) directory dir
      = ((node.revise (Manifest.visit dir) { directory := directory }).2,
          paragraphOf (node.revise (Manifest.visit dir) { directory := directory }).1) := by
  simp [extractResources, paragraphOf, Node.revise, Node.reviseAll, Manifest.visit, localFile?,
    referenceKey?]

variable [Transliteration]

theorem shows_image (flat : compiler.imageDir = ".") (bare : block.wantPdf = false)
    : Shows compiler block
        (paragraphOf (imageNode (addressOf (compiler.nextId block.alt ++ ".png")) shown)) where
  image := by
    refine ⟨_, rfl, rfl, fun wanted => ?_⟩
    rw [bare] at wanted
    cases wanted
  published := by
    intro directory
    rw [extractResources_paragraphOf, revise_imageNode, Compiler.pngFor, Compiler.pdfFor, bare,
      Compiler.pathOf_of_flat flat]
    exact ⟨⟨_, _, false⟩, _, rfl, rfl, rfl, rfl, rfl⟩

theorem shows_link (flat : compiler.imageDir = ".") (wanted : block.wantPdf = true)
    : Shows compiler block
        (paragraphOf (linkNode (addressOf (compiler.nextId block.alt ++ ".pdf"))
          (imageNode (addressOf (compiler.nextId block.alt ++ ".png")) shown))) where
  image := by
    refine ⟨_, rfl, rfl, fun _ => ⟨linkNode _ _, ?_, rfl, rfl, rfl⟩⟩
    exact List.mem_cons_of_mem _ (List.mem_cons_of_mem _ List.mem_cons_self)
  published := by
    intro directory
    rw [extractResources_paragraphOf, revise_linkNode, revise_imageNode, Compiler.pngFor,
      Compiler.pdfFor, wanted, Compiler.pathOf_of_flat flat, Compiler.pathOf_of_flat flat]
    exact ⟨⟨_, _, false⟩, _, rfl, rfl, rfl, rfl, rfl⟩

/-- A document without images shows no block. -/
theorem not_shows_of_imageless {document : Node} (imageless : document.Imageless)
    : ¬ Shows compiler block document := by
  intro shows
  obtain ⟨image, found, _⟩ := shows.image
  rw [imageless.findAll_eq_nil] at found
  cases found

/-- The markdown that stands in for a block is a document that shows it exactly if no line of its
text is blank.
-/
theorem shows_referenceFor_iff {raw : String} (parsed : Block.parse? raw = some block)
    (flat : compiler.imageDir = ".")
    : Shows compiler block (Document.parse (compiler.referenceFor block))
      ↔ Unbroken (Line.ofText block.alt.toList) := by
  have relative (file : String) : compiler.relative file = file := by
    simp [Compiler.relative, flat]
  have png : ∀ c ∈ (addressOf (compiler.nextId block.alt ++ ".png")).toList, InWord c :=
    inWord_of_mem_addressOf (.inl rfl)
  have pdf : ∀ c ∈ (addressOf (compiler.nextId block.alt ++ ".pdf")).toList, InWord c :=
    inWord_of_mem_addressOf (.inr rfl)
  have trimmed := (trimmed_of_parse? parsed).1
  cases wanted : block.wantPdf with
  | false =>
      have text : (compiler.referenceFor block).toList
          = imageText (escapeChars block.alt.toList)
              (addressOf (compiler.nextId block.alt ++ ".png")).toList []
            ++ ['\n'] := by
        simp [Compiler.referenceFor, wanted, imageReference, relative, imageText, escapeMarkdown,
          addressOf, Path.scheme, Token.targetText]
      constructor
      · intro shows
        refine Decidable.byContradiction fun broken => ?_
        exact not_shows_of_imageless (imageless_parse png trimmed broken text) shows
      · intro unbroken
        obtain ⟨shown, whole⟩ := exists_parse_image png trimmed unbroken text
        rw [whole, String.ofList_toList]
        exact shows_image flat wanted
  | true =>
      have unbroken := unbroken_of_wantPdf parsed wanted
      obtain ⟨shown, whole⟩ := @exists_parse_link block.alt _ _ png pdf trimmed unbroken
        (compiler.referenceFor block) (by
          simp [Compiler.referenceFor, wanted, imageReference, relative, imageText,
            escapeMarkdown, addressOf, Path.scheme, Token.targetText])
      rw [whole, String.ofList_toList, String.ofList_toList]
      exact iff_of_true (shows_link flat wanted) unbroken

end

/-- A region that has been compiled to an image is shown by what stands in for it exactly if no line
of its text is blank. The image has been kept or rendered where the published document looks for it.
-/
theorem shows_iff_of_compileRegion [Transliteration] {renderer : Renderer} {raw : String}
    {block : Block} {compiler : Compiler} {bench : Bench} {markdown : String} {after : Workshop}
    (parsed : Block.parse? raw = some block) (showing : block.isPreamble = false)
    (flat : compiler.imageDir = ".")
    (compiled : compileRegion renderer raw ⟨compiler, bench⟩ = (.ok markdown, after))
    : (Shows compiler block (Document.parse markdown) ↔ Unbroken (Line.ofText block.alt.toList))
      ∧ (∃ outcome,
          renderOrReuse renderer block.body (compiler.pngFor block) (compiler.pdfFor block)
              ⟨compiler.claim block.alt, bench⟩
            = (.ok outcome, after))
      ∧ ∃ bytes, after.bench.files.read (compiler.pngFor block) = .ok bytes := by
  simp only [compileRegion, parsed, showing, Bool.false_eq_true, if_false] at compiled
  rw [compileBlock_eq] at compiled
  obtain ⟨outcome, middle, ended, rest⟩ := bind_eq_ok_iff.mp compiled
  obtain ⟨rfl, rfl⟩ := pure_eq_ok_iff.mp rest
  refine ⟨shows_referenceFor_iff parsed flat, ⟨outcome, ended⟩, ?_⟩
  have how := handled renderer block.body (compiler.pngFor block) (compiler.pdfFor block)
    ⟨compiler.claim block.alt, bench⟩
  rw [ended] at how
  cases how with
  | cached current =>
      simp only [isCurrent, Bool.and_eq_true, beq_iff_eq] at current
      obtain ⟨bytes, read, _⟩ := exists_of_storedHash current.2
      exact ⟨bytes, read⟩
  | rendered stale drawn stored =>
      obtain ⟨bytes, filled⟩ := filled_of_storeHash stored
      exact ⟨bytes, filled.read⟩

section

open scoped Publication.StandIns

/-- A compiler that has seen nothing yet. -/
def freshCompiler : Compiler := .start ⟨"."⟩ "."

/-- The request for the image of the first block of a document. -/
def firstRequest (block : Block) : Request where
  compiler := freshCompiler.claim block.alt
  renderer := sketcher
  body := block.body
  png := freshCompiler.pngFor block
  pdf := freshCompiler.pdfFor block

/-- A block is compiled on an empty desk if its image can be drawn there. -/
theorem exists_compileRegion_of_render {raw : String} {block : Block}
    (parsed : Block.parse? raw = some block) (showing : block.isPreamble = false)
    (plain : FileSystem.endsInSlash (firstRequest block).png = false)
    (blank : storedHash emptyDesk.files (firstRequest block).png = none)
    (works : ((firstRequest block).render emptyDesk).1 = .ok ())
    (drawn
      : ((((firstRequest block).render emptyDesk).2.files.read
          (firstRequest block).png).toOption.bind Png.read?).isSome = true)
    : ∃ after,
        compileRegion sketcher raw ⟨freshCompiler, emptyDesk⟩
        = (.ok (freshCompiler.referenceFor block), after) := by
  have stale : isCurrent emptyDesk.files (firstRequest block).png (firstRequest block).pdf
      ((firstRequest block).compiler.hash (firstRequest block).body) = false := by
    rw [isCurrent, blank]
    exact Bool.and_false _
  have performed := perform_of_render rfl plain stale works drawn
  generalize (firstRequest block).signed emptyDesk = signed at performed
  obtain ⟨compiler, made⟩ := Request.exists_renderOrReuse_of_perform performed
  simp only [firstRequest] at made
  refine ⟨⟨compiler, signed⟩, ?_⟩
  simp only [compileRegion, parsed, showing, Bool.false_eq_true, if_false]
  rw [compileBlock_eq]
  exact bind_eq_ok_iff.mpr ⟨_, _, made, rfl⟩

/-- A block of two lines with marks in its text, and with a document. -/
def markedBlock : Block := ⟨"*f*(x)\n= [$x_1$", "\nx\n", false⟩

def markedRegion : String := "\\begin\x7blatex\x7d[ *f*(x)\n= [$x_1$]\nx\n\\end\x7blatex\x7d\n"

theorem shows_markedBlock
    : ∃ markdown after,
        compileRegion sketcher markedRegion ⟨freshCompiler, emptyDesk⟩ = (.ok markdown, after)
        ∧ Shows freshCompiler markedBlock (Document.parse markdown) := by
  have parsed : Block.parse? markedRegion = some markedBlock := by decide +kernel
  have showing : markedBlock.isPreamble = false := by decide +kernel
  obtain ⟨after, compiled⟩ := exists_compileRegion_of_render parsed showing (by decide +kernel)
    (by decide +kernel) (by decide +kernel) (by decide +kernel)
  exact ⟨_, after, compiled,
    (shows_iff_of_compileRegion parsed showing (by decide +kernel) compiled).1.mpr
      (by decide +kernel)⟩

/-- A block whose text has a blank line. -/
def brokenBlock : Block := ⟨"a\n\nb", "\nx\n", false⟩

def brokenRegion : String := "\\begin\x7blatex\x7d[a\n\nb]\nx\n\\end\x7blatex\x7d\n"

/-- Not every block that is compiled is shown: a blank line in its text ends the paragraph. -/
theorem not_forall_shows
    : ¬ ∀ renderer raw block compiler bench markdown after,
        Block.parse? raw = some block
        → block.isPreamble = false
        → compiler.imageDir = "."
        → compileRegion renderer raw ⟨compiler, bench⟩ = (.ok markdown, after)
        → Shows compiler block (Document.parse markdown) := by
  intro always
  have parsed : Block.parse? brokenRegion = some brokenBlock := by decide +kernel
  have showing : brokenBlock.isPreamble = false := by decide +kernel
  obtain ⟨after, compiled⟩ := exists_compileRegion_of_render parsed showing (by decide +kernel)
    (by decide +kernel) (by decide +kernel) (by decide +kernel)
  have shown := always _ _ _ _ _ _ _ parsed showing (by decide +kernel) compiled
  obtain ⟨image, found, _⟩ := shown.image
  have none : ((Document.parse (freshCompiler.referenceFor brokenBlock)).findAll
      (·.kind = .image)).length = 0 := by
    decide +kernel
  rw [found] at none
  cases none

end

end Publication.Latex
