import Publication.Proofs.FileSystem.Untouched
import Publication.Proofs.Latex.Recompilation
import Publication.Proofs.Latex.RendererCalls
import Publication.Proofs.Latex.Sketch
import Publication.Text.Transliteration.Table

/-! Regions that are not compiled. However that fails, the preamble and the counts stay, the scratch
directory is gone, and no image comes by the hash of a source that was not rendered.
-/

namespace Publication.Latex

open Publication.FileSystem (Frame SameOutside nowhere)

-----------------------------------------------------------------------------------------
-- How a region fails
-----------------------------------------------------------------------------------------

/-- How the compiling of a region fails: it is no block, or its image is not rendered, or the hash
is not stored in the image. What is known is kept but for the name, which stays claimed.
-/
inductive Failed [Transliteration] (renderer : Renderer) (raw : String) (shop : Workshop)
    : Error → Workshop → Prop
  | malformed (unparsed : Block.parse? raw = none) : Failed renderer raw shop (.malformed raw) shop
  | unrendered {block : Block} {error : RenderError} {bench : Bench}
    (parsed : Block.parse? raw = some block)
    (failed
      : render renderer shop.compiler.baseDir (shop.compiler.compose block.body)
          (shop.compiler.pngFor block) (shop.compiler.pdfFor block) shop.bench
        = (.error error, bench))
    : Failed renderer raw shop (.unrendered (snippet block.body) error)
        ⟨shop.compiler.claim block.alt, bench⟩
  | unstored {block : Block} {error : CacheError} {bench : Bench}
    (parsed : Block.parse? raw = some block)
    (drawn
      : render renderer shop.compiler.baseDir (shop.compiler.compose block.body)
          (shop.compiler.pngFor block) (shop.compiler.pdfFor block) shop.bench
        = (.ok (), bench))
    : Failed renderer raw shop (.cache error) ⟨shop.compiler.claim block.alt, bench⟩

section

variable [Transliteration] {renderer : Renderer} {raw : String} {error : Error}
  {shop after : Workshop}

/-- A block that is to become an image fails as its rendering or its storing does. -/
theorem failed_of_compileBlock {block : Block} (parsed : Block.parse? raw = some block)
    (ended : compileBlock renderer block shop = (.error error, after))
    : Failed renderer raw shop error after := by
  obtain ⟨compiler, bench⟩ := shop
  rw [compileBlock_eq] at ended
  have requested := bind_pure_eq_error_iff.mp ended
  have how := handled renderer block.body (compiler.pngFor block) (compiler.pdfFor block)
    ⟨compiler.claim block.alt, bench⟩
  rw [requested] at how
  cases how with
  | unrendered _ failed => exact .unrendered parsed failed
  | unstored _ drawn => exact .unstored parsed drawn

/-- Every failure is one of these. -/
theorem failed_of_compileRegion (ended : compileRegion renderer raw shop = (.error error, after))
    : Failed renderer raw shop error after := by
  cases parsed : Block.parse? raw with
  | none =>
      simp only [compileRegion, parsed] at ended
      cases ended
      exact .malformed parsed
  | some block =>
      cases extending : block.isPreamble with
      | true =>
          simp only [compileRegion, parsed, extending, if_true] at ended
          cases ended
      | false =>
          simp only [compileRegion, parsed, extending, Bool.false_eq_true, if_false] at ended
          exact failed_of_compileBlock parsed ended

end

-----------------------------------------------------------------------------------------
-- The scratch directory
-----------------------------------------------------------------------------------------

/-- The place of a scratch directory is free. -/
theorem entry?_freshScratch (fs : FileSystem) : fs.entry? (freshScratch fs) = none :=
  fs.entry?_freshNumbered scratchRoot "pubgen-latex-"

/-- The directory is not there, and below it is nothing that was not there before. -/
structure Cleared (scratch : Location) (before after : FileSystem) : Prop where
  gone : after.entry? scratch = none
  below
    : ∀ place entry,
        scratch <+: place → after.entry? place = some entry → before.entry? place = some entry

theorem cleared_freshScratch (fs : FileSystem) : Cleared (freshScratch fs) fs fs :=
  ⟨entry?_freshScratch fs, fun _ _ _ held => held⟩

/-- Where nothing was below places that are free, nothing is left of the directory. -/
theorem Cleared.entry?_eq_none {scratch : Location} {before after : FileSystem}
    (cleared : Cleared scratch before after) (rooted : before.Rooted)
    (free : before.entry? scratch = none) {place : Location} (inside : scratch <+: place)
    : after.entry? place = none := by
  obtain ⟨names, rfl⟩ := inside
  cases held : after.entry? (scratch ++ names) with
  | none => rfl
  | some entry =>
      have there := cleared.below _ _ (List.prefix_append _ _) held
      rw [rooted.entry?_below free names] at there
      cases there

/-- What changes nowhere but in the scratch directory, and leaves that cleared, changes nothing. -/
theorem Cleared.read_eq {scratch : Location} {before after : FileSystem}
    (cleared : Cleared scratch before after) (rooted : before.Rooted)
    (free : before.entry? scratch = none) (same : SameOutside (scratch <+: ·) before after)
    (path : Path)
    : after.read path = before.read path := by
  have whole : SameOutside nowhere before after := by
    refine ⟨same.here, fun place _ => ?_⟩
    by_cases inside : scratch <+: place
    · rw [cleared.entry?_eq_none rooted free inside]
      obtain ⟨names, rfl⟩ := inside
      exact (rooted.entry?_below free names).symm
    · exact same.entries place inside
  exact whole.read_eq path

section

variable {renderer : Renderer} {baseDir png : Path} {source : String} {pdf : Option Path}
  {bench after : Bench} {result : Except RenderError Unit}

/-- However rendering ends, its scratch directory is cleared. -/
theorem cleared_of_render
    (rendered : render renderer baseDir source png pdf bench = (result, after))
    : Cleared (freshScratch bench.files) bench.files after.files := by
  rcases render_cases renderer baseDir source png pdf bench with
    ⟨error, ended⟩ | ⟨scratch, files, ending, middle, named, _, _, ended⟩
  · obtain ⟨_, rfl⟩ := Prod.mk.inj (ended.symm.trans rendered)
    exact cleared_freshScratch bench.files
  · obtain ⟨_, rfl⟩ := Prod.mk.inj (ended.symm.trans rendered)
    have proper : scratch ≠ [] := named ▸ (isScratch_freshScratch bench.files).ne_nil
    have gone {place : Location} (inside : scratch <+: place)
        : FileSystem.entry? (middle.files.drop scratch) place = none :=
      FileSystem.entry?_drop_below middle.files proper inside
    rw [← named]
    refine ⟨gone (List.prefix_refl scratch), fun place entry inside held => ?_⟩
    cases (gone inside).symm.trans held

-----------------------------------------------------------------------------------------
-- Passes that fail
-----------------------------------------------------------------------------------------

/-- A tool that changes nothing but what is in the directory for its output. -/
def WritesInside (tool : Tool TypesetJob) : Prop :=
  ∀ calls job fs, SameOutside (job.outputDir.place fs.here <+: ·) fs (tool calls job fs).2

/-- How the passes over a source end, if it comes to them: the scratch directory is made and the
source is written there.
-/
def passesEnd? (renderer : Renderer) (baseDir : Path) (source : String) (bench : Bench)
    : Option (Except RenderError Unit) :=
  let scratch := pathTo (freshScratch bench.files)
  match bench.files.makeDirectory scratch with
  | .error _ => none
  | .ok files =>
      match files.writeText (scratch.child "file.tex") source with
      | .error _ => none
      | .ok first =>
          some (typesetAll renderer ⟨scratch.child "file.tex", scratch, baseDir⟩ source
            typesetPasses ⟨first, bench.calls⟩).1

/-- One of the passes over a source fails. -/
def PassFails (renderer : Renderer) (baseDir : Path) (source : String) (bench : Bench) : Prop :=
  ∃ error, passesEnd? renderer baseDir source bench = some (.error error)

/-- Before a pass fails, the scratch directory is made and the source is written. -/
theorem PassFails.exists_typesetAll (fails : PassFails renderer baseDir source bench)
    : ∃ files first error last,
        bench.files.makeDirectory (pathTo (freshScratch bench.files)) = .ok files
        ∧ files.writeText ((pathTo (freshScratch bench.files)).child "file.tex") source = .ok first
        ∧ typesetAll renderer
            ⟨(pathTo (freshScratch bench.files)).child "file.tex",
              pathTo (freshScratch bench.files), baseDir⟩
            source typesetPasses ⟨first, bench.calls⟩
          = (.error error, last) := by
  obtain ⟨error, ended⟩ := fails
  unfold passesEnd? at ended
  dsimp only at ended
  split at ended
  next => cases ended
  next files made =>
      split at ended
      next => cases ended
      next first written =>
          exact ⟨files, first, error, _, made, written,
            Prod.ext (Option.some.inj ended) rfl⟩

/-- Work that ends before the image is drawn ends so whether or not a document is asked for. -/
theorem renderIn_eq_of_passFails {scratch : Path} {files first : FileSystem} {calls : List Call}
    {error : RenderError} {last : Bench}
    (written : files.writeText (scratch.child "file.tex") source = .ok first)
    (failed
      : typesetAll renderer ⟨scratch.child "file.tex", scratch, baseDir⟩ source typesetPasses
          ⟨first, calls⟩
        = (.error error, last))
    : renderIn scratch renderer baseDir source png pdf ⟨files, calls⟩ = (.error error, last) := by
  have stored : onFiles RenderError.file
      (FileSystem.perform fun fs => fs.writeText (scratch.child "file.tex") source) ⟨files, calls⟩
      = (.ok (), ⟨first, calls⟩) := by
    simp only [onFiles, FileSystem.perform, written]
  have bare : renderIn scratch renderer baseDir source png none ⟨files, calls⟩
      = (.error error, last) := by
    rw [renderIn_none, bind_of_ok stored, bind_of_error failed]
  cases pdf with
  | none => exact bare
  | some pdf => rw [renderIn_some, bind_of_error bare]

/-- The passes change nothing outside the scratch directory, and only typeset. -/
theorem WritesInside.typesetAll (inside : WritesInside renderer.typeset) {scratch : Location}
    (proper : IsScratch scratch) (passes : Nat)
    (typeset
      : typesetAll renderer ⟨(pathTo scratch).child "file.tex", pathTo scratch, baseDir⟩ source
          passes bench
        = (result, after))
    : SameOutside (scratch <+: ·) bench.files after.files
      ∧ ∃ made, after.calls = bench.calls ++ made ∧ ∀ call ∈ made, call.isTypeset = true := by
  have chains : Chains (SameOutside (scratch <+: ·)) := ⟨.refl _, .trans⟩
  have pass (calls : List Call) (fs : FileSystem)
      : SameOutside (scratch <+: ·) fs (renderer.typeset calls
          ⟨(pathTo scratch).child "file.tex", pathTo scratch, baseDir⟩ fs).2 := by
    have inner := inside calls ⟨(pathTo scratch).child "file.tex", pathTo scratch, baseDir⟩ fs
    rwa [place_pathTo proper] at inner
  have kept := Keeps.typesetAll chains pass source passes bench
  obtain ⟨made, begun, called, _⟩ := makes_typesetAll renderer
    ⟨(pathTo scratch).child "file.tex", pathTo scratch, baseDir⟩ source passes bench
  rw [typeset] at kept called
  refine ⟨kept, made, called, fun call member => ?_⟩
  rw [List.eq_of_mem_replicate (begun.subset member)]
  rfl

/-- If a pass fails, nothing has changed outside the scratch directory, and the image has not been
drawn.
-/
theorem sameOutside_of_passFails (inside : WritesInside renderer.typeset)
    (fails : PassFails renderer baseDir source bench)
    (rendered : render renderer baseDir source png pdf bench = (result, after))
    : SameOutside (freshScratch bench.files <+: ·) bench.files after.files
      ∧ ∃ made, after.calls = bench.calls ++ made ∧ ∀ call ∈ made, call.isTypeset = true := by
  rcases render_cases renderer baseDir source png pdf bench with
    ⟨error, ended⟩ | ⟨scratch, files, ending, middle, named, made, worked, ended⟩
  · obtain ⟨_, rfl⟩ := Prod.mk.inj (ended.symm.trans rendered)
    exact ⟨.refl _ _, [], (List.append_nil _).symm, List.forall_mem_nil _⟩
  · obtain ⟨_, rfl⟩ := Prod.mk.inj (ended.symm.trans rendered)
    obtain ⟨again, first, error, last, same, written, failed⟩ := fails.exists_typesetAll
    have proper : IsScratch scratch := named ▸ isScratch_freshScratch bench.files
    rw [← named] at same written failed ⊢
    obtain rfl : files = again := Except.ok.inj (made.symm.trans same)
    obtain ⟨_, rfl⟩ := Prod.mk.inj (worked.symm.trans (renderIn_eq_of_passFails written failed))
    have opened : SameOutside (scratch <+: ·) bench.files files := by
      refine (FileSystem.sameOutside_of_makeDirectory made).mono fun place same => ?_
      have there : place = scratch := (show place = _ from same).trans (place_pathTo proper _)
      exact there ▸ List.prefix_refl scratch
    have stored : SameOutside (scratch <+: ·) files first := by
      refine (FileSystem.filled_of_write written).sameOutside.mono fun place same => ?_
      rw [show place = _ from same, place_child _ (by decide), place_pathTo proper]
      exact List.prefix_append _ _
    obtain ⟨typeset, called⟩ := inside.typesetAll proper typesetPasses failed
    exact ⟨((opened.trans stored).trans typeset).trans
      (FileSystem.sameOutside_drop middle.files scratch), called⟩

-----------------------------------------------------------------------------------------
-- Images without a hash of their own
-----------------------------------------------------------------------------------------

/-- The file at a place carries a hash. -/
def Carries (fs : FileSystem) (place : Location) (hash : String) : Prop :=
  ∃ bytes, fs.Has place bytes ∧ hashIn? bytes = some hash

/-- Where a path leads, the hash that it tells is that of the file there. -/
theorem storedHash_iff_carries {fs : FileSystem} {place : Location} {hash : String}
    (led : fs.locate png = .ok place)
    : storedHash fs png = some hash ↔ Carries fs place hash := by
  constructor
  · intro stored
    obtain ⟨bytes, read, carried⟩ := exists_of_storedHash stored
    exact ⟨bytes, (FileSystem.read_iff_has led bytes).mp read, carried⟩
  · rintro ⟨bytes, has, carried⟩
    rw [storedHash_of_read ((FileSystem.read_iff_has led bytes).mpr has), carried]

theorem carries_of_storedHash {fs : FileSystem} {hash : String}
    (stored : storedHash fs png = some hash)
    : Carries fs (png.place fs.here) hash := by
  obtain ⟨bytes, read, carried⟩ := exists_of_storedHash stored
  exact ⟨bytes, FileSystem.has_of_read read, carried⟩

/-- A tool that draws images without a hash: what is at the place of the image afterwards carries
none, unless it was there before.
-/
structure DrawsBare (tool : Tool RasterJob) : Prop where
  here : ∀ calls job fs, (tool calls job fs).2.here = fs.here
  bare
    : ∀ calls job fs bytes,
        (tool calls job fs).2.Has (job.png.place fs.here) bytes
        → fs.Has (job.png.place fs.here) bytes ∨ hashIn? bytes = none

/-- As long as the current directory is a given one, it stays, and a file outside the scratch
directory comes by no hash.
-/
def StaysBare (here scratch place : Location) (before after : FileSystem) : Prop :=
  before.here = here →
    after.here = here
    ∧ (¬ scratch <+: place → ∀ bytes, after.Has place bytes →
        before.Has place bytes ∨ hashIn? bytes = none)

section

variable {here scratch place : Location} {before middle last : FileSystem}

theorem chains_staysBare (here scratch place : Location)
    : Chains (StaysBare here scratch place) := by
  refine ⟨fun fs start => ⟨start, fun _ bytes has => .inl has⟩, ?_⟩
  intro first second third earlier later start
  obtain ⟨middle, bare⟩ := earlier start
  obtain ⟨last, bareLater⟩ := later middle
  refine ⟨last, fun outside bytes has => ?_⟩
  rcases bareLater outside bytes has with has | none
  · exact bare outside bytes has
  · exact .inr none

/-- Files that hold what they held come by no hash. -/
theorem staysBare_of_has (same : last.here = before.here)
    (kept : before.here = here → ¬ scratch <+: place →
      ∀ bytes, last.Has place bytes → before.Has place bytes)
    : StaysBare here scratch place before last :=
  fun start => ⟨same.trans start, fun outside bytes has => .inl (kept start outside bytes has)⟩

theorem staysBare_of_frame (frame : Frame nowhere before last)
    : StaysBare here scratch place before last :=
  staysBare_of_has frame.here fun _ _ bytes => (frame.has_iff id bytes).mp

theorem staysBare_of_sameOutside (same : SameOutside (scratch <+: ·) before last)
    : StaysBare here scratch place before last :=
  staysBare_of_has same.here fun _ outside bytes => (same.has_iff outside bytes).mp

theorem staysBare_of_filled {path : Path} {bytes : List UInt8}
    (filled : before.Filled path bytes last)
    (apart : ¬ scratch <+: place → place ≠ path.place here)
    : StaysBare here scratch place before last :=
  staysBare_of_has filled.here fun start outside found =>
    (filled.has_iff (start ▸ apart outside) found).mp

end

/-- In the scratch directory no hash is brought to the image, if the document goes elsewhere. -/
theorem keeps_staysBare_renderIn {scratch here : Location} (proper : IsScratch scratch)
    (inside : WritesInside renderer.typeset) (draws : DrawsBare renderer.rasterize)
    (apart : ∀ path ∈ pdf, png.place here ≠ path.place here)
    : Keeps (StaysBare here scratch (png.place here))
        (renderIn (pathTo scratch) renderer baseDir source png pdf) := by
  have chains := chains_staysBare here scratch (png.place here)
  have front : Keeps (StaysBare here scratch (png.place here))
      (renderIn (pathTo scratch) renderer baseDir source png none) := by
    refine .renderIn chains ?_ ?_ (fun _ _ => staysBare_of_frame) ?_
    · intro fs after filled
      refine staysBare_of_filled filled fun outside same => outside ?_
      rw [same, place_child _ (by decide), place_pathTo proper]
      exact List.prefix_append _ _
    · intro calls fs
      have inner := inside calls ⟨(pathTo scratch).child "file.tex", pathTo scratch, baseDir⟩ fs
      rw [place_pathTo proper] at inner
      exact staysBare_of_sameOutside inner
    · intro calls fs start
      refine ⟨(draws.here calls _ fs).trans start, fun _ bytes => ?_⟩
      exact start ▸ draws.bare calls _ fs bytes
  cases pdf with
  | none => exact front
  | some path =>
      rw [renderIn_some]
      refine .bind chains front fun _ => .perform chains _ fun fs after copied => ?_
      obtain ⟨_, _, filled⟩ := FileSystem.filled_of_copy copied
      exact staysBare_of_filled filled fun _ => apart path rfl

/-- However rendering ends, the image comes by no hash, if the document goes elsewhere. -/
theorem carries_of_render {hash : String} (inside : WritesInside renderer.typeset)
    (draws : DrawsBare renderer.rasterize)
    (apart : ∀ path ∈ pdf, ∀ here, png.place here ≠ path.place here)
    (rendered : render renderer baseDir source png pdf bench = (result, after))
    : after.files.here = bench.files.here
      ∧ (Carries after.files (png.place bench.files.here) hash
        → Carries bench.files (png.place bench.files.here) hash) := by
  rcases render_cases renderer baseDir source png pdf bench with
    ⟨error, ended⟩ | ⟨scratch, files, ending, middle, named, made, worked, ended⟩
  · obtain ⟨_, rfl⟩ := Prod.mk.inj (ended.symm.trans rendered)
    exact ⟨rfl, id⟩
  · obtain ⟨_, rfl⟩ := Prod.mk.inj (ended.symm.trans rendered)
    have proper : IsScratch scratch := named ▸ isScratch_freshScratch bench.files
    let Stays := StaysBare bench.files.here scratch (png.place bench.files.here)
    have chains : Chains Stays := chains_staysBare _ _ _
    have opened : Stays bench.files files :=
      staysBare_of_frame (FileSystem.frame_of_makeDirectory made)
    have drawn : Stays files
        (renderIn (pathTo scratch) renderer baseDir source png pdf ⟨files, bench.calls⟩).2.files :=
      keeps_staysBare_renderIn proper inside draws
        (fun path asked => apart path asked bench.files.here) ⟨files, bench.calls⟩
    rw [worked] at drawn
    have dropped : Stays middle.files (middle.files.drop scratch) :=
      staysBare_of_sameOutside (FileSystem.sameOutside_drop middle.files scratch)
    obtain ⟨here, bare⟩ := chains.trans opened (chains.trans drawn dropped) rfl
    refine ⟨here, ?_⟩
    rintro ⟨bytes, has, carried⟩
    have outside : ¬ scratch <+: png.place bench.files.here := by
      intro within
      obtain ⟨executable, held⟩ := has
      cases (FileSystem.entry?_drop_below middle.files proper.ne_nil within).symm.trans held
    rcases bare outside bytes has with kept | none
    · exact ⟨bytes, kept, carried⟩
    · cases none.symm.trans carried

end

-----------------------------------------------------------------------------------------
-- What failed regions leave
-----------------------------------------------------------------------------------------

/-- What is left as it was by a region that failed. -/
structure Unspoiled [Transliteration] (renderer : Renderer) (raw : String) (error : Error)
    (shop after : Workshop)
    : Prop where
  preamble : after.compiler.preamble = shop.compiler.preamble
  usage : after.compiler.usage = shop.compiler.usage
  /-- No scratch directory remains. -/
  cleared : Cleared (freshScratch shop.bench.files) shop.bench.files after.bench.files
  /-- For a region that is no block nothing has been done. -/
  malformed : ∀ text, error = .malformed text → after = shop
  /-- If a pass has failed, nothing has been drawn, and all files are as they were. -/
  passes
    : WritesInside renderer.typeset → ∀ block,
        Block.parse? raw = some block
        → PassFails renderer shop.compiler.baseDir (shop.compiler.compose block.body) shop.bench
        → SameOutside (freshScratch shop.bench.files <+: ·) shop.bench.files after.bench.files
          ∧ (shop.bench.files.Rooted →
              ∀ path, after.bench.files.read path = shop.bench.files.read path)
          ∧ ∃ made,
              after.bench.calls = shop.bench.calls ++ made
              ∧ ∀ call ∈ made, call.isTypeset = true
  /-- The image carries the hash of the source only if it did so before. -/
  hash
    : WritesInside renderer.typeset → DrawsBare renderer.rasterize → ∀ block,
        Block.parse? raw = some block
        → (Carries after.bench.files ((shop.compiler.pngFor block).place shop.bench.files.here)
              (shop.compiler.hash block.body)
            → Carries shop.bench.files ((shop.compiler.pngFor block).place shop.bench.files.here)
              (shop.compiler.hash block.body))
          ∧ (storedHash after.bench.files (shop.compiler.pngFor block)
                = some (shop.compiler.hash block.body)
            → ∀ place, shop.bench.files.locate (shop.compiler.pngFor block) = .ok place
            → storedHash shop.bench.files (shop.compiler.pngFor block)
                = some (shop.compiler.hash block.body))

section

variable [Transliteration] {renderer : Renderer} {raw : String} {error : Error}
  {shop after : Workshop}

/-- A region whose rendering was tried and whose hash was not stored is unspoiled. -/
theorem unspoiled_of_render {block : Block} {result : Except RenderError Unit} {bench : Bench}
    (parsed : Block.parse? raw = some block) (well : ∀ text, error ≠ .malformed text)
    (rendered
      : render renderer shop.compiler.baseDir (shop.compiler.compose block.body)
          (shop.compiler.pngFor block) (shop.compiler.pdfFor block) shop.bench
        = (result, bench))
    : Unspoiled renderer raw error shop ⟨shop.compiler.claim block.alt, bench⟩ where
  preamble := rfl
  usage := rfl
  cleared := cleared_of_render rendered
  malformed := fun text same => absurd same (well text)
  passes := by
    intro inside other again fails
    obtain rfl : block = other := Option.some.inj (parsed.symm.trans again)
    obtain ⟨same, called⟩ := sameOutside_of_passFails inside fails rendered
    refine ⟨same, fun rooted path => ?_, called⟩
    exact (cleared_of_render rendered).read_eq rooted (entry?_freshScratch _) same path
  hash := by
    intro inside draws other again
    obtain rfl : block = other := Option.some.inj (parsed.symm.trans again)
    have apart : ∀ path ∈ shop.compiler.pdfFor block, ∀ here,
        (shop.compiler.pngFor block).place here ≠ path.place here := by
      intro path wanted here
      rw [Compiler.eq_pathOf_of_mem_pdfFor wanted]
      exact shop.compiler.place_png_ne (shop.compiler.nextId_spec block.alt).1 here
    obtain ⟨here, bare⟩ := carries_of_render inside draws apart rendered
    refine ⟨bare, fun stored place led => ?_⟩
    have carried := carries_of_storedHash stored
    rw [here] at carried
    rw [storedHash_iff_carries led, ← ((FileSystem.locate_eq_ok_iff _ _ _).mp led).2.2]
    exact bare carried

/-- A region that fails, however it does, leaves the preamble and the counts as they were and no
scratch directory. If it is no block, it leaves everything as it was; if a pass fails, all files.
The image comes by no hash of the source that failed.
-/
theorem unspoiled_of_compileRegion
    (ended : compileRegion renderer raw shop = (.error error, after))
    : Unspoiled renderer raw error shop after := by
  cases failed_of_compileRegion ended with
  | malformed unparsed =>
      exact {
        preamble := rfl
        usage := rfl
        cleared := cleared_freshScratch shop.bench.files
        malformed := fun _ _ => rfl
        passes := fun _ block parsed => nomatch unparsed.symm.trans parsed
        hash := fun _ _ block parsed => nomatch unparsed.symm.trans parsed }
  | unrendered parsed failed => exact unspoiled_of_render parsed nofun failed
  | unstored parsed drawn => exact unspoiled_of_render parsed nofun drawn

end

-----------------------------------------------------------------------------------------
-- A pass that takes too long
-----------------------------------------------------------------------------------------

/-- A script writes nothing but the document. -/
theorem writesInside_script (script : Script) : WritesInside script.renderer.typeset := by
  intro calls job fs
  simp only [Script.renderer, Script.typeset]
  split
  next => exact .refl _ fs
  next =>
      split
      next =>
          rcases put_cases (job.outputDir.child "file.pdf") Script.pdfBytes fs with
            ⟨after, put, filled⟩ | ⟨error, failed⟩
          · rw [put]
            refine filled.sameOutside.mono fun place same => ?_
            rw [show place = _ from same, place_child _ (by decide)]
            exact List.prefix_append _ _
          · rw [failed]
            exact .refl _ fs
      next => exact .refl _ fs

/-- Octets without a hash that are put at a path, or not, bring none. -/
theorem bare_put {path : Path} {bytes : List UInt8} (plain : hashIn? bytes = none) (fs : FileSystem)
    : (Script.put path bytes fs).2.here = fs.here
      ∧ ∀ found,
          (Script.put path bytes fs).2.Has (path.place fs.here) found
          → fs.Has (path.place fs.here) found ∨ hashIn? found = none := by
  rcases put_cases path bytes fs with ⟨after, put, filled⟩ | ⟨error, failed⟩
  · rw [put]
    exact ⟨filled.here, fun found has => .inr ((filled.has_self found).mp has ▸ plain)⟩
  · rw [failed]
    exact ⟨rfl, fun _ => .inl⟩

/-- What a script writes as an image carries no hash. -/
theorem drawsBare_script (script : Script) : DrawsBare script.renderer.rasterize := by
  have drawn (calls : List Call) (job : RasterJob) (fs : FileSystem)
      : (script.renderer.rasterize calls job fs).2.here = fs.here
        ∧ ∀ found,
            (script.renderer.rasterize calls job fs).2.Has (job.png.place fs.here) found
            → fs.Has (job.png.place fs.here) found ∨ hashIn? found = none := by
    have picture : hashIn? Script.pictureBytes = none := by decide +kernel
    have garbage : hashIn? (Text.utf8 "not a png") = none := by decide +kernel
    simp only [Script.renderer, Script.rasterize]
    split
    next => exact ⟨rfl, fun _ => .inl⟩
    next =>
        split
        next => exact bare_put picture fs
        next => exact ⟨rfl, fun _ => .inl⟩
        next => exact bare_put garbage fs
  exact ⟨fun calls job fs => (drawn calls job fs).1, fun calls job fs => (drawn calls job fs).2⟩

/-- A script in which the second pass takes too long. -/
def slowScript : Script := { failure := some (.typeset 2, .timedOut "pdflatex" 30) }

/-- A region for which a document is wanted. -/
def printedRegion : String := "\\begin\x7blatex\x7d[A --pdf]\nx\n\\end\x7blatex\x7d\n"

def printedBlock : Block := ⟨"A", "\nx\n", true⟩

/-- A compiler that has seen nothing, at an empty desk. -/
def newShop : Workshop := ⟨.start ⟨"."⟩ "img", emptyDesk⟩

section

open scoped Publication.StandIns

/-- After the second pass has failed, all files are as they were. -/
theorem unspoiled_slowScript
    : ∃ error after,
        compileRegion slowScript.renderer printedRegion newShop = (.error error, after)
        ∧ Unspoiled slowScript.renderer printedRegion error newShop after
        ∧ (∀ path, after.bench.files.read path = emptyDesk.files.read path)
        ∧ ¬ Carries after.bench.files ((newShop.compiler.pngFor printedBlock).place [])
            (newShop.compiler.hash printedBlock.body) := by
  have fails : (compileRegion slowScript.renderer printedRegion newShop).1.toOption = none := by
    decide +kernel
  rcases ended : compileRegion slowScript.renderer printedRegion newShop with
    ⟨error | text, after⟩
  · have unspoiled := unspoiled_of_compileRegion ended
    have parsed : Block.parse? printedRegion = some printedBlock := by decide +kernel
    have late : passesEnd? slowScript.renderer newShop.compiler.baseDir
        (newShop.compiler.compose printedBlock.body) newShop.bench
        = some (.error (.timedOut "pdflatex" 30)) := by
      decide +kernel
    obtain ⟨_, same, _⟩ :=
      unspoiled.passes (writesInside_script slowScript) _ parsed ⟨_, late⟩
    obtain ⟨bare, _⟩ := unspoiled.hash (writesInside_script slowScript)
      (drawsBare_script slowScript) _ parsed
    refine ⟨error, after, rfl, unspoiled, same (by decide +kernel), fun carried => ?_⟩
    obtain ⟨bytes, ⟨executable, held⟩, _⟩ := bare carried
    exact entry?_emptyDesk _ bytes executable held
  · rw [ended] at fails
    cases fails

end

end Publication.Latex
