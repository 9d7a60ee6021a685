import Publication.Proofs.Latex.ImageFiles

/-! Compiling regions again. After regions have been compiled, all their images are current; so the
same regions compile to the same text without a call of a tool, and nothing changes.
-/

namespace Publication.Latex

open Publication.Hash Publication.Naming

-----------------------------------------------------------------------------------------
-- Files that are retained
-----------------------------------------------------------------------------------------

/-- The files of the images whose names a compiler has claimed stay as they are. -/
def Compiler.Retains (compiler : Compiler) (before after : FileSystem) : Prop :=
  ∀ id ∈ compiler.names.taken, ∀ file, IsFileOf id file → ∀ entry,
    before.at? (compiler.pathOf file) = .ok entry → after.at? (compiler.pathOf file) = .ok entry

theorem Compiler.Retains.trans {compiler : Compiler} {first second third : FileSystem}
    (earlier : compiler.Retains first second) (later : compiler.Retains second third)
    : compiler.Retains first third :=
  fun id claimed file belongs entry found =>
    later id claimed file belongs entry (earlier id claimed file belongs entry found)

/-- An image is current where its files are the same. -/
theorem isCurrent_of_at? {fs other : FileSystem} {png : Path} {pdf : Option Path} {hash : String}
    (image : ∀ entry, fs.at? png = .ok entry → other.at? png = .ok entry)
    (document
      : ∀ path ∈ pdf, ∀ entry, fs.at? path = .ok entry → other.at? path = .ok entry)
    (current : isCurrent fs png pdf hash = true)
    : isCurrent other png pdf hash = true := by
  simp only [isCurrent, Bool.and_eq_true, beq_iff_eq] at current ⊢
  obtain ⟨present, stored⟩ := current
  obtain ⟨bytes, read, carried⟩ := exists_of_storedHash stored
  obtain ⟨executable, found⟩ := (FileSystem.read_eq_ok_iff_at? _ _ _).mp read
  have again : other.read png = .ok bytes :=
    (FileSystem.read_eq_ok_iff_at? _ _ _).mpr ⟨executable, image _ found⟩
  refine ⟨?_, by rw [storedHash_of_read again, carried]⟩
  cases pdf with
  | none => rfl
  | some path =>
      obtain ⟨entry, found⟩ := (FileSystem.isPresent_iff _ _).mp present
      exact (FileSystem.isPresent_iff _ _).mpr ⟨entry, document path rfl entry found⟩

-----------------------------------------------------------------------------------------
-- Work that can be done again
-----------------------------------------------------------------------------------------

/-- Work of a compiler that has succeeded with a text, and leads to it again on files that retain
its images: without a call, and each image counts as found.
-/
structure Settled (work : Renderer → Compiling String) (text : String) (before after : Workshop)
    : Prop where
  baseDir : after.compiler.baseDir = before.compiler.baseDir
  imageDir : after.compiler.imageDir = before.compiler.imageDir
  names : ∀ id ∈ before.compiler.names.taken, id ∈ after.compiler.names.taken
  retains : before.compiler.Retains before.bench.files after.bench.files
  again
    : ∃ images,
        after.compiler.usage.total = before.compiler.usage.total + images
        ∧ ∀ renderer usage files calls,
            after.compiler.Retains after.bench.files files
            → work renderer ⟨{ before.compiler with usage := usage }, ⟨files, calls⟩⟩
              = (.ok text,
                  ⟨{ after.compiler with usage := ⟨usage.hits + images, usage.misses⟩ },
                    ⟨files, calls⟩⟩)

section

variable {work : Renderer → Compiling String} {text : String} {before after : Workshop}

/-- What is retained for a compiler is retained for it as it was before. -/
theorem Settled.retains_before (settled : Settled work text before after) {fs other : FileSystem}
    (retained : after.compiler.Retains fs other)
    : before.compiler.Retains fs other := by
  have same (file : String) : before.compiler.pathOf file = after.compiler.pathOf file := by
    simp only [Compiler.pathOf, Compiler.relative, settled.baseDir, settled.imageDir]
  intro id claimed file belongs entry found
  rw [same] at found ⊢
  exact retained id (settled.names id claimed) file belongs entry found

/-- Text that takes no work is settled. -/
theorem settled_pure (text : String) (shop : Workshop)
    : Settled (fun _ => pure text) text shop shop where
  baseDir := rfl
  imageDir := rfl
  names := fun _ claimed => claimed
  retains := fun _ _ _ _ _ found => found
  again := ⟨0, rfl, fun _ _ _ _ _ => rfl⟩

/-- Work that is followed by other work is settled if both are. -/
theorem Settled.append {next : Renderer → Compiling String} {more : String} {last : Workshop}
    (first : Settled work text before after) (second : Settled next more after last)
    : Settled
        (fun renderer => do
          let text ← work renderer
          let more ← next renderer
          return text ++ more)
        (text ++ more) before last where
  baseDir := second.baseDir.trans first.baseDir
  imageDir := second.imageDir.trans first.imageDir
  names := fun id claimed => second.names id (first.names id claimed)
  retains := first.retains.trans (first.retains_before second.retains)
  again := by
    obtain ⟨images, total, again⟩ := first.again
    obtain ⟨others, sum, repeated⟩ := second.again
    refine ⟨images + others, by omega, fun renderer usage files calls retained => ?_⟩
    have middle := second.retains.trans (second.retains_before retained)
    rw [bind_of_ok (again renderer usage files calls middle),
      bind_of_ok (repeated renderer _ files calls retained)]
    simp [Nat.add_assoc]
    rfl

end

-----------------------------------------------------------------------------------------
-- Regions
-----------------------------------------------------------------------------------------

/-- An image that is current is kept. -/
theorem renderOrReuse_of_isCurrent (renderer : Renderer) {body : String} {png : Path}
    {pdf : Option Path} {shop : Workshop}
    (current : isCurrent shop.bench.files png pdf (shop.compiler.hash body) = true)
    : renderOrReuse renderer body png pdf shop
      = (.ok .cached, ⟨{ shop.compiler with usage := shop.compiler.usage.hit }, shop.bench⟩) := by
  have ended := handled renderer body png pdf shop
  generalize renderOrReuse renderer body png pdf shop = after at ended ⊢
  cases ended with
  | cached => rfl
  | unrendered stale => cases stale.symm.trans current
  | unstored stale => cases stale.symm.trans current
  | rendered stale => cases stale.symm.trans current

section

variable [Transliteration]

/-- The compiler after it has claimed a name for an image. -/
def Compiler.claim (compiler : Compiler) (alt : String) : Compiler :=
  { compiler with names := (compiler.names.claim (imageBase alt)).2 }

/-- The name that a compiler claims for an image. -/
def Compiler.nextId (compiler : Compiler) (alt : String) : String :=
  (compiler.names.claim (imageBase alt)).1

theorem Compiler.nextId_spec (compiler : Compiler) (alt : String)
    : IsId (compiler.nextId alt)
      ∧ compiler.nextId alt ∉ compiler.names.taken
      ∧ (compiler.claim alt).names.taken = compiler.nextId alt :: compiler.names.taken :=
  ⟨isId_unique alt _, unique_not_mem _ _, rfl⟩

/-- Where the image of a block goes. -/
def Compiler.pngFor (compiler : Compiler) (block : Block) : Path :=
  compiler.pathOf (compiler.nextId block.alt ++ ".png")

/-- Where the document of a block goes, if it is wanted. -/
def Compiler.pdfFor (compiler : Compiler) (block : Block) : Option Path :=
  if block.wantPdf then some (compiler.pathOf (compiler.nextId block.alt ++ ".pdf")) else none

/-- Where a document goes is the file of the name that is claimed. -/
theorem Compiler.eq_pathOf_of_mem_pdfFor {compiler : Compiler} {block : Block} {path : Path}
    (wanted : path ∈ compiler.pdfFor block)
    : path = compiler.pathOf (compiler.nextId block.alt ++ ".pdf") := by
  simp only [pdfFor] at wanted
  split at wanted
  · exact (Option.some.inj wanted).symm
  · cases wanted

/-- The markdown that stands in for a block. -/
def Compiler.referenceFor (compiler : Compiler) (block : Block) : String :=
  imageReference block.alt (compiler.relative (compiler.nextId block.alt ++ ".png"))
    (if block.wantPdf then some (compiler.relative (compiler.nextId block.alt ++ ".pdf")) else none)

/-- A block is compiled by rendering or keeping its image, once a name has been claimed. -/
theorem compileBlock_eq (renderer : Renderer) (block : Block) (compiler : Compiler) (bench : Bench)
    : compileBlock renderer block ⟨compiler, bench⟩
      = (renderOrReuse renderer block.body (compiler.pngFor block) (compiler.pdfFor block)
          >>= fun _ => pure (compiler.referenceFor block)) ⟨compiler.claim block.alt, bench⟩ := by
  rw [compileBlock, bind_of_ok (show (get : Compiling Workshop) _ = (.ok _, _) from rfl)]
  have noted (names : Registry)
      : note (fun c => { c with names := names }) ⟨compiler, bench⟩
        = (.ok (), ⟨{ compiler with names := names }, bench⟩) :=
    rfl
  simp only [bind_of_ok (noted _), Compiler.pdfFor, Compiler.referenceFor]
  cases wanted : block.wantPdf
  · rfl
  · rfl

section

variable {compiler : Compiler} {block : Block} {bench : Bench} {files : FileSystem}

/-- A block is settled once its image is current and counted. -/
theorem settled_of_isCurrent {usage : Usage} {calls : List Call}
    (counted : usage.total = compiler.usage.total + 1)
    (retained : compiler.Retains bench.files files)
    (current
      : isCurrent files (compiler.pngFor block) (compiler.pdfFor block) (compiler.hash block.body)
        = true)
    : Settled (compileBlock · block) (compiler.referenceFor block) ⟨compiler, bench⟩
        ⟨{ compiler.claim block.alt with usage := usage }, ⟨files, calls⟩⟩ where
  baseDir := rfl
  imageDir := rfl
  names := fun _ claimed => List.mem_cons_of_mem _ claimed
  retains := retained
  again := by
    refine ⟨1, counted, fun renderer usage others calls kept => ?_⟩
    obtain ⟨proper, _, _⟩ := compiler.nextId_spec block.alt
    have still : isCurrent others (compiler.pngFor block) (compiler.pdfFor block)
        (compiler.hash block.body) = true := by
      refine isCurrent_of_at? (kept _ List.mem_cons_self _ ⟨proper, .inl rfl⟩) ?_ current
      intro path wanted
      rw [Compiler.eq_pathOf_of_mem_pdfFor wanted]
      exact kept _ List.mem_cons_self _ ⟨proper, .inr rfl⟩
    change compileBlock renderer block ⟨{ compiler with usage := usage }, ⟨others, calls⟩⟩ = _
    rw [compileBlock_eq]
    exact bind_of_ok (@renderOrReuse_of_isCurrent renderer block.body (compiler.pngFor block)
      (compiler.pdfFor block)
      ⟨{ compiler.claim block.alt with usage := usage }, ⟨others, calls⟩⟩ still)

/-- A block that has been compiled is settled. -/
theorem Steady.settled_block {renderer : Renderer} (steady : Steady renderer)
    {shop after : Workshop} {text : String}
    (compiled : compileBlock renderer block shop = (.ok text, after))
    : Settled (compileBlock · block) text shop after := by
  obtain ⟨compiler, bench⟩ := shop
  rw [compileBlock_eq] at compiled
  obtain ⟨outcome, middle, ended, rest⟩ := bind_eq_ok_iff.mp compiled
  cases rest
  have how := handled renderer block.body (compiler.pngFor block) (compiler.pdfFor block)
    ⟨compiler.claim block.alt, bench⟩
  rw [ended] at how
  obtain ⟨proper, free, _⟩ := compiler.nextId_spec block.alt
  cases how with
  | cached current =>
      refine settled_of_isCurrent ?_ (fun _ _ _ _ _ found => found) current
      simp [Usage.total, Usage.hit, Compiler.claim]
      omega
  | rendered stale drawn stored =>
      refine settled_of_isCurrent ?_ ?_ ?_
      · simp [Usage.total, Usage.miss, Compiler.claim]
        omega
      · intro id claimed file belongs entry found
        exact steady.confined.at?_of_render proper
          (fun _ wanted => Compiler.eq_pathOf_of_mem_pdfFor wanted) drawn stored belongs
          (fun same => free (same ▸ claimed)) found
      · have apart (path : Path) (wanted : path ∈ compiler.pdfFor block) (here : Location)
            : (compiler.pngFor block).place here ≠ path.place here := by
          rw [Compiler.eq_pathOf_of_mem_pdfFor wanted]
          exact compiler.place_png_ne proper here
        simp only [isCurrent, Bool.and_eq_true, beq_iff_eq]
        refine ⟨?_, steady.storedHash_of_render apart drawn stored⟩
        cases asked : compiler.pdfFor block with
        | none => rfl
        | some path =>
            rw [asked, Compiler.eq_pathOf_of_mem_pdfFor asked] at drawn
            rw [Compiler.eq_pathOf_of_mem_pdfFor asked]
            exact isPresent_of_render proper drawn stored

end

section

variable {renderer : Renderer} {shop after : Workshop} {text : String}

/-- A region that has been compiled is settled. A block that extends the preamble has no image. -/
theorem Steady.settled_region (steady : Steady renderer) {raw : String}
    (compiled : compileRegion renderer raw shop = (.ok text, after))
    : Settled (compileRegion · raw) text shop after := by
  cases parsed : Block.parse? raw with
  | none =>
      simp only [compileRegion, parsed] at compiled
      cases compiled
  | some block =>
      cases extending : block.isPreamble with
      | true =>
          simp only [compileRegion, parsed, extending, if_true] at compiled ⊢
          cases compiled
          exact {
            baseDir := rfl
            imageDir := rfl
            names := fun _ claimed => claimed
            retains := fun _ _ _ _ _ found => found
            again := ⟨0, rfl, fun _ _ _ _ _ => rfl⟩ }
      | false =>
          simp only [compileRegion, parsed, extending, Bool.false_eq_true, if_false] at compiled ⊢
          exact steady.settled_block compiled

/-- Parts that have been compiled are settled, by induction on them. -/
theorem Steady.settled_parts (steady : Steady renderer) {parts : List Part}
    (expanded : expandParts renderer parts shop = (.ok text, after))
    : Settled (expandParts · parts) text shop after := by
  induction parts generalizing shop text with
  | nil =>
      cases expanded
      exact settled_pure "" after
  | cons part rest ih =>
      cases part with
      | markdown plain =>
          obtain ⟨more, _, done, ended⟩ := bind_eq_ok_iff.mp expanded
          cases ended
          exact (settled_pure (String.ofList plain) shop).append (ih done)
      | latex raw =>
          obtain ⟨region, middle, compiled, others⟩ := bind_eq_ok_iff.mp expanded
          obtain ⟨more, _, done, ended⟩ := bind_eq_ok_iff.mp others
          cases ended
          exact (steady.settled_region compiled).append (ih done)

end

/-- The regions of a document that has been expanded lead to the same markdown again on files that
retain the images, and all images count as found.
-/
theorem Steady.expandDocument_again {renderer : Renderer} (steady : Steady renderer)
    {baseDir : Path} {imageDir body markdown : String} {usage : Usage} {bench after : Bench}
    (expanded
      : expandDocument renderer baseDir imageDir body bench = (.ok (markdown, usage), after))
    : ∃ compiler : Compiler, ∀ other files calls,
        compiler.Retains after.files files
        → expandDocument other baseDir imageDir body ⟨files, calls⟩
          = (.ok (markdown, ⟨usage.hits + usage.misses, 0⟩), ⟨files, calls⟩) := by
  rcases ended : expand renderer body ⟨.start baseDir imageDir, bench⟩ with ⟨error | text, shop⟩
  · simp only [expandDocument, ended] at expanded
    cases expanded
  · simp only [expandDocument, ended] at expanded
    cases expanded
    have settled := steady.settled_parts ended
    obtain ⟨images, total, again⟩ := settled.again
    refine ⟨shop.compiler, fun other files calls retained => ?_⟩
    have second : expand other body ⟨.start baseDir imageDir, ⟨files, calls⟩⟩ = _ :=
      again other {} files calls retained
    have sum : images = shop.compiler.usage.hits + shop.compiler.usage.misses := by
      simpa [Usage.total, Compiler.start] using total.symm
    simp [expandDocument, second, sum, Except.map]

end

end Publication.Latex
