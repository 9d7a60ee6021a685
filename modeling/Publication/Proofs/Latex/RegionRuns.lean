import Publication.Proofs.Article.Recompilation
import Publication.Proofs.Latex.Regions
import Publication.Proofs.Latex.RendererCalls
import Publication.Proofs.Naming.ClaimRuns

/-! Runs of regions. Regions are compiled one after another by one compiler: what it knows before
each of them, and what it asks of the renderer for it, is told by the regions before.
-/

namespace Publication.Latex

open Publication.Naming

-----------------------------------------------------------------------------------------
-- One region
-----------------------------------------------------------------------------------------

section

variable [Transliteration]

/-- The calls for the image of a block. -/
def Workshop.callsFor (shop : Workshop) (block : Block) : List Call :=
  Latex.callsFor (pathTo (freshScratch shop.bench.files)) shop.compiler.baseDir
    (shop.compiler.pngFor block) (shop.compiler.compose block.body)

/-- Whether the image of a block is kept. -/
def Workshop.keeps (shop : Workshop) (block : Block) : Bool :=
  isCurrent shop.bench.files (shop.compiler.pngFor block) (shop.compiler.pdfFor block)
    (shop.compiler.hash block.body)

/-- How the compiling of a region ends: the region is no block, or it extends the preamble, or its
image is kept or rendered, or that fails.
-/
inductive Turned (raw : String) (shop : Workshop) : Except Error String × Workshop → Prop
  | malformed (unparsed : Block.parse? raw = none) : Turned raw shop (.error (.malformed raw), shop)
  | extended {block : Block} (parsed : Block.parse? raw = some block)
    (extending : block.isPreamble = true)
    : Turned raw shop
        (.ok "",
          ⟨{ shop.compiler with preamble := shop.compiler.preamble ++ block.body }, shop.bench⟩)
  | kept {block : Block} (parsed : Block.parse? raw = some block)
    (showing : block.isPreamble = false) (current : shop.keeps block = true)
    : Turned raw shop
        (.ok (shop.compiler.referenceFor block),
          ⟨{ shop.compiler.claim block.alt with usage := shop.compiler.usage.hit }, shop.bench⟩)
  | rendered {block : Block} {files : FileSystem} (parsed : Block.parse? raw = some block)
    (showing : block.isPreamble = false) (stale : shop.keeps block = false)
    : Turned raw shop
        (.ok (shop.compiler.referenceFor block),
          ⟨{ shop.compiler.claim block.alt with usage := shop.compiler.usage.miss },
            ⟨files, shop.bench.calls ++ shop.callsFor block⟩⟩)
  | failed {block : Block} {error : Error} {files : FileSystem} {made : List Call}
    (parsed : Block.parse? raw = some block) (showing : block.isPreamble = false)
    (stale : shop.keeps block = false) (begun : made <+: shop.callsFor block)
    : Turned raw shop
        (.error error, ⟨shop.compiler.claim block.alt, ⟨files, shop.bench.calls ++ made⟩⟩)

/-- A block that is to become an image ends in one of the ways of its region. -/
theorem turned_block (renderer : Renderer) {raw : String} {block : Block} (shop : Workshop)
    (parsed : Block.parse? raw = some block) (showing : block.isPreamble = false)
    : Turned raw shop (compileBlock renderer block shop) := by
  obtain ⟨compiler, bench⟩ := shop
  rw [compileBlock_eq]
  have ended := handled renderer block.body (compiler.pngFor block) (compiler.pdfFor block)
    ⟨compiler.claim block.alt, bench⟩
  obtain ⟨made, begun, called, whole⟩ := exists_calls_of_render renderer
    (compiler.claim block.alt).baseDir ((compiler.claim block.alt).compose block.body)
    (compiler.pngFor block) (compiler.pdfFor block) bench
  have counted {result : Except RenderError Unit} {last : Bench}
      (ended
        : render renderer (compiler.claim block.alt).baseDir
            ((compiler.claim block.alt).compose block.body) (compiler.pngFor block)
            (compiler.pdfFor block) bench
          = (result, last))
      : last.calls = bench.calls ++ made := by
    rw [ended] at called
    exact called
  generalize request : renderOrReuse renderer block.body (compiler.pngFor block)
    (compiler.pdfFor block) ⟨compiler.claim block.alt, bench⟩ = after at ended
  cases ended with
  | cached current =>
      rw [bind_of_ok request]
      exact .kept parsed showing current
  | @unrendered error last stale failed =>
      obtain ⟨files, calls⟩ := last
      obtain rfl : calls = bench.calls ++ made := counted failed
      rw [bind_of_error request]
      exact .failed parsed showing stale begun
  | @unstored error last stale drawn failed =>
      obtain ⟨files, calls⟩ := last
      obtain rfl : calls = bench.calls ++ made := counted drawn
      rw [bind_of_error request]
      exact .failed parsed showing stale begun
  | @rendered last files stale drawn stored =>
      rw [bind_of_ok request, counted drawn, whole (congrArg Prod.fst drawn)]
      exact .rendered parsed showing stale

/-- Every region ends in one of these ways. -/
theorem turned (renderer : Renderer) (raw : String) (shop : Workshop)
    : Turned raw shop (compileRegion renderer raw shop) := by
  cases parsed : Block.parse? raw with
  | none =>
      simp only [compileRegion, parsed]
      exact .malformed parsed
  | some block =>
      cases extending : block.isPreamble with
      | true =>
          simp only [compileRegion, parsed, extending, if_true]
          exact .extended parsed extending
      | false =>
          simp only [compileRegion, parsed, extending, Bool.false_eq_true, if_false]
          exact turned_block renderer shop parsed extending

end

-----------------------------------------------------------------------------------------
-- What regions ask for
-----------------------------------------------------------------------------------------

/-- The blocks among regions that are to become images. -/
def imagesOf (raws : List String) : List Block :=
  (raws.filterMap Block.parse?).filter (! ·.isPreamble)

/-- The bodies of the blocks among regions that extend the preamble, one behind the other. -/
def preambleOf (raws : List String) : String :=
  String.join (((raws.filterMap Block.parse?).filter (·.isPreamble)).map (·.body))

/-- The image of a name and the document of its source. -/
def filesOf (id : String) : List String := [id ++ ".png", id ++ ".pdf"]

theorem imagesOf_append (raws others : List String)
    : imagesOf (raws ++ others) = imagesOf raws ++ imagesOf others := by
  simp [imagesOf]

theorem preambleOf_append (raws others : List String)
    : preambleOf (raws ++ others) = preambleOf raws ++ preambleOf others := by
  simp [preambleOf, String.join_append]

/-- What is asked for by one region more. -/
theorem asked_of_parse? {raw : String} {block : Block} (parsed : Block.parse? raw = some block)
    : imagesOf [raw] = (if block.isPreamble then [] else [block])
      ∧ preambleOf [raw] = if block.isPreamble then block.body else "" := by
  cases extending : block.isPreamble <;>
    simp [imagesOf, preambleOf, parsed, extending, String.join]

section

variable [Transliteration]

/-- The names that those of the images among regions are derived from. -/
def basesOf (raws : List String) : List String := (imagesOf raws).map (imageBase ·.alt)

/-- The names of the images among regions. -/
def idsOf (raws : List String) : List String := Registry.empty.claimAll (basesOf raws)

theorem basesOf_append (raws others : List String)
    : basesOf (raws ++ others) = basesOf raws ++ basesOf others := by
  simp [basesOf, imagesOf_append]

/-- The names that are derived for images come from plain words. -/
theorem isPlain_imageBase (alt : String) : IsPlain (imageBase alt) := by
  simp only [imageBase]
  split
  next =>
      have plain : fallbackName.toList.all isPlainChar = true := by decide
      exact ⟨by decide, List.all_eq_true.mp plain⟩
  next filled =>
      refine ⟨fun empty => filled (by rw [empty]; rfl), fun c member => ?_⟩
      rcases isPlainChar_of_mem_slugify member with rfl | plain
      · rfl
      · exact plain

theorem isPlain_of_mem_idsOf {raws : List String} : ∀ id ∈ idsOf raws, IsPlain id := by
  refine Registry.isPlain_of_mem_claimAll fun base member => ?_
  obtain ⟨block, _, rfl⟩ := List.mem_map.mp member
  exact isPlain_imageBase block.alt

theorem isId_of_mem_idsOf {raws : List String} {id : String} (member : id ∈ idsOf raws)
    : IsId id := by
  have plain := (isPlain_of_mem_idsOf id member).plain
  constructor
  · exact fun slash => absurd (plain _ slash) (by decide)
  · exact fun dot => absurd (plain _ dot) (by decide)

/-- The files of different images and the documents of their sources go to different places. -/
theorem nodup_places (compiler : Compiler) (raws : List String) (here : Location)
    : (((idsOf raws).flatMap filesOf).map fun file => (compiler.pathOf file).place here).Nodup := by
  have belongs (id : String) (member : id ∈ idsOf raws) (file : String) (listed : file ∈ filesOf id)
      : IsFileOf id file :=
    ⟨isId_of_mem_idsOf member, by simpa [filesOf] using listed⟩
  have distinct : (idsOf raws).Nodup := (Registry.empty.nodup_claimAll _).1
  have files : ((idsOf raws).flatMap filesOf).Nodup := by
    refine List.nodup_flatMap.mpr ⟨fun id _ => ?_, ?_⟩
    · refine List.nodup_cons.mpr ⟨fun same => ?_, List.nodup_singleton _⟩
      simpa using congrArg String.toList (List.mem_singleton.mp same)
    · refine distinct.imp_of_mem fun {id other} member there apart => ?_
      intro file listed again
      exact apart ((belongs id member file listed).eq_of_eq (belongs other there file again))
  obtain ⟨dir, _, leads⟩ := compiler.folder_pathOf.leads here
  refine files.map_on fun file member other there same => ?_
  obtain ⟨id, known, listed⟩ := List.mem_flatMap.mp member
  obtain ⟨id', known', listed'⟩ := List.mem_flatMap.mp there
  rw [(leads file (belongs id known file listed).isName.1).1,
    (leads other (belongs id' known' other listed').isName.1).1] at same
  exact (List.append_singleton_inj.mp same).2

-----------------------------------------------------------------------------------------
-- Runs
-----------------------------------------------------------------------------------------

/-- Compiles regions one after another. -/
def compileRegions (renderer : Renderer) (raws : List String) : Compiling (List String) :=
  raws.mapM (compileRegion renderer)

section

variable {renderer : Renderer} {raw : String} {raws : List String} {shop last : Workshop}

theorem compileRegions_nil_eq_ok_iff {texts : List String}
    : compileRegions renderer [] shop = (.ok texts, last) ↔ texts = [] ∧ last = shop := by
  rw [compileRegions, List.mapM_nil, pure_eq_ok_iff, eq_comm, @eq_comm _ shop]

/-- Regions are compiled if the first one is, and then the others. -/
theorem compileRegions_cons_eq_ok_iff {texts : List String}
    : compileRegions renderer (raw :: raws) shop = (.ok texts, last)
      ↔ ∃ text rest middle,
          texts = text :: rest
          ∧ compileRegion renderer raw shop = (.ok text, middle)
          ∧ compileRegions renderer raws middle = (.ok rest, last) := by
  rw [compileRegions, List.mapM_cons]
  constructor
  · intro compiled
    obtain ⟨text, middle, first, later⟩ := bind_eq_ok_iff.mp compiled
    obtain ⟨rest, _, second, ended⟩ := bind_eq_ok_iff.mp later
    obtain ⟨rfl, rfl⟩ := pure_eq_ok_iff.mp ended
    exact ⟨text, rest, middle, rfl, first, second⟩
  · rintro ⟨text, rest, middle, rfl, first, second⟩
    exact bind_eq_ok_iff.mpr ⟨_, _, first, bind_eq_ok_iff.mpr ⟨_, _, second, rfl⟩⟩

/-- A run fails if its first region does, or the others behind it. -/
theorem compileRegions_cons_eq_error_iff {error : Error}
    : compileRegions renderer (raw :: raws) shop = (.error error, last)
      ↔ compileRegion renderer raw shop = (.error error, last)
        ∨ ∃ text middle,
            compileRegion renderer raw shop = (.ok text, middle)
            ∧ compileRegions renderer raws middle = (.error error, last) := by
  rw [compileRegions, List.mapM_cons, bind_eq_error_iff]
  simp only [bind_pure_eq_error_iff]
  rfl

end

/-- What a compiler has learned from regions. -/
structure Learns (raws : List String) (before after : Compiler) : Prop where
  baseDir : after.baseDir = before.baseDir
  imageDir : after.imageDir = before.imageDir
  preamble : after.preamble = before.preamble ++ preambleOf raws
  names : after.names = before.names.after (basesOf raws)
  total : after.usage.total = before.usage.total + (imagesOf raws).length

section

variable {renderer : Renderer} {raws others : List String} {before middle after : Compiler}

theorem Learns.refl (compiler : Compiler) : Learns [] compiler compiler where
  baseDir := rfl
  imageDir := rfl
  preamble := (String.append_empty).symm
  names := (Registry.after_nil _).symm
  total := rfl

theorem Learns.append (first : Learns raws before middle) (second : Learns others middle after)
    : Learns (raws ++ others) before after where
  baseDir := second.baseDir.trans first.baseDir
  imageDir := second.imageDir.trans first.imageDir
  preamble := by rw [second.preamble, first.preamble, preambleOf_append, String.append_assoc]
  names := by rw [second.names, first.names, basesOf_append, Registry.after_append]
  total := by
    rw [second.total, first.total, imagesOf_append, List.length_append, Nat.add_assoc]

/-- A region of an image is learned from once the image is counted. -/
theorem learns_image {raw : String} {block : Block} {compiler : Compiler} {usage : Usage}
    (parsed : Block.parse? raw = some block) (showing : block.isPreamble = false)
    (counted : usage.total = compiler.usage.total + 1)
    : Learns [raw] compiler { compiler.claim block.alt with usage := usage } := by
  obtain ⟨images, preamble⟩ := asked_of_parse? parsed
  rw [showing] at images preamble
  exact {
    baseDir := rfl
    imageDir := rfl
    preamble := by rw [preamble]; exact String.append_empty.symm
    names := by rw [basesOf, images]; rfl
    total := by rw [images]; exact counted }

/-- A region that has been compiled is learned from. -/
theorem learns_region {raw text : String} {shop next : Workshop}
    (compiled : compileRegion renderer raw shop = (.ok text, next))
    : Learns [raw] shop.compiler next.compiler := by
  have turn := turned renderer raw shop
  rw [compiled] at turn
  cases turn with
  | extended parsed extending =>
      obtain ⟨images, preamble⟩ := asked_of_parse? parsed
      rw [extending] at images preamble
      exact {
        baseDir := rfl
        imageDir := rfl
        preamble := by rw [preamble]; rfl
        names := by rw [basesOf, images]; exact (Registry.after_nil _).symm
        total := by rw [images]; rfl }
  | kept parsed showing =>
      refine learns_image parsed showing ?_
      simp only [Usage.hit, Usage.total]
      omega
  | rendered parsed showing =>
      refine learns_image parsed showing ?_
      simp only [Usage.miss, Usage.total]
      omega

/-- Regions that have been compiled are learned from, by induction on them. -/
theorem learns_regions {texts : List String} {shop last : Workshop}
    (compiled : compileRegions renderer raws shop = (.ok texts, last))
    : Learns raws shop.compiler last.compiler := by
  induction raws generalizing shop texts with
  | nil =>
      obtain ⟨_, rfl⟩ := compileRegions_nil_eq_ok_iff.mp compiled
      exact .refl _
  | cons raw raws ih =>
      obtain ⟨text, rest, middle, _, first, later⟩ := compileRegions_cons_eq_ok_iff.mp compiled
      exact (learns_region first).append (ih later)

/-- Each region has a text, by induction on the regions. -/
theorem length_of_compileRegions {texts : List String} {shop last : Workshop}
    (compiled : compileRegions renderer raws shop = (.ok texts, last))
    : texts.length = raws.length := by
  induction raws generalizing shop texts with
  | nil => rw [(compileRegions_nil_eq_ok_iff.mp compiled).1]
  | cons raw raws ih =>
      obtain ⟨text, rest, middle, rfl, _, later⟩ := compileRegions_cons_eq_ok_iff.mp compiled
      exact congrArg (· + 1) (ih later)

/-- A run goes on where an earlier one has ended, by induction on the earlier one. -/
theorem compileRegions_append_eq_ok_iff {texts : List String} {shop last : Workshop}
    : compileRegions renderer (raws ++ others) shop = (.ok texts, last)
      ↔ ∃ earlier later middle,
          texts = earlier ++ later
          ∧ compileRegions renderer raws shop = (.ok earlier, middle)
          ∧ compileRegions renderer others middle = (.ok later, last) := by
  rw [compileRegions, List.mapM_append]
  constructor
  · intro compiled
    obtain ⟨earlier, middle, first, rest⟩ := bind_eq_ok_iff.mp compiled
    obtain ⟨later, _, second, ended⟩ := bind_eq_ok_iff.mp rest
    obtain ⟨rfl, rfl⟩ := pure_eq_ok_iff.mp ended
    exact ⟨earlier, later, middle, rfl, first, second⟩
  · rintro ⟨earlier, later, middle, rfl, first, second⟩
    exact bind_eq_ok_iff.mpr ⟨_, _, first, bind_eq_ok_iff.mpr ⟨_, _, second, rfl⟩⟩

/-- A run fails with the first region that fails, and ends where that has left it; by induction on
the regions.
-/
theorem compileRegions_eq_error_iff {error : Error} {shop last : Workshop}
    : compileRegions renderer raws shop = (.error error, last)
      ↔ ∃ earlier raw later texts middle,
          raws = earlier ++ raw :: later
          ∧ compileRegions renderer earlier shop = (.ok texts, middle)
          ∧ compileRegion renderer raw middle = (.error error, last) := by
  induction raws generalizing shop with
  | nil =>
      constructor
      · intro failed
        cases failed
      · rintro ⟨earlier, raw, later, _, _, cut, _⟩
        cases earlier <;> cases cut
  | cons head raws ih =>
      rw [compileRegions_cons_eq_error_iff]
      constructor
      · rintro (failed | ⟨text, middle, first, failed⟩)
        · exact ⟨[], head, raws, [], shop, rfl, rfl, failed⟩
        · obtain ⟨earlier, raw, later, texts, before, rfl, compiled, failed⟩ := ih.mp failed
          refine ⟨head :: earlier, raw, later, text :: texts, before, rfl, ?_, failed⟩
          exact compileRegions_cons_eq_ok_iff.mpr ⟨_, _, _, rfl, first, compiled⟩
      · rintro ⟨earlier, raw, later, texts, before, cut, compiled, failed⟩
        cases earlier with
        | nil =>
            obtain ⟨rfl, rfl⟩ := List.cons.inj cut
            obtain ⟨_, rfl⟩ := compileRegions_nil_eq_ok_iff.mp compiled
            exact .inl failed
        | cons _ earlier =>
            obtain ⟨rfl, behind⟩ := List.cons.inj cut
            obtain ⟨text, rest, middle, _, first, others⟩ :=
              compileRegions_cons_eq_ok_iff.mp compiled
            exact .inr ⟨text, middle, first, ih.mpr ⟨_, _, _, _, _, behind, others, failed⟩⟩

end

-----------------------------------------------------------------------------------------
-- Bodies
-----------------------------------------------------------------------------------------

/-- The regions among parts. -/
def regionsOf : List Part → List String
  | [] => []
  | .markdown _ :: rest => regionsOf rest
  | .latex raw :: rest => String.ofList raw :: regionsOf rest

/-- Parts fail to be expanded as their regions fail to be compiled, by induction on the parts. -/
theorem expandParts_eq_error_iff {renderer : Renderer} {parts : List Part} {error : Error}
    {shop last : Workshop}
    : expandParts renderer parts shop = (.error error, last)
      ↔ compileRegions renderer (regionsOf parts) shop = (.error error, last) := by
  induction parts generalizing shop with
  | nil => exact ⟨(nomatch ·), (nomatch ·)⟩
  | cons part rest ih =>
      cases part with
      | markdown text =>
          rw [expandParts, bind_pure_eq_error_iff]
          exact ih
      | latex raw =>
          rw [regionsOf, compileRegions_cons_eq_error_iff, expandParts, bind_eq_error_iff]
          simp only [bind_pure_eq_error_iff, ih]

-----------------------------------------------------------------------------------------
-- Regions in order
-----------------------------------------------------------------------------------------

/-- The calls that a region asks for, if it is to become an image. -/
def Workshop.callsOf (shop : Workshop) (raw : String) : List Call :=
  ((Block.parse? raw).map shop.callsFor).getD []

/-- A region that fails has made the first of its calls. -/
theorem exists_calls_of_error {renderer : Renderer} {raw : String} {error : Error}
    {shop last : Workshop} (failed : compileRegion renderer raw shop = (.error error, last))
    : ∃ made, made <+: shop.callsOf raw ∧ last.bench.calls = shop.bench.calls ++ made := by
  have turn := turned renderer raw shop
  rw [failed] at turn
  cases turn with
  | malformed => exact ⟨[], List.nil_prefix, (List.append_nil _).symm⟩
  | @failed block _ files made parsed _ _ begun =>
      refine ⟨made, ?_, rfl⟩
      rw [Workshop.callsOf, parsed]
      exact begun

/-- The image of a block is drawn from the document for its body under a preamble, and goes where
its name tells: it is kept if it is current, and otherwise rendered.
-/
structure Draws (first : Compiler) (preamble id : String) (block : Block) (text : String)
    (before after : Workshop) : Prop where
  source
    : before.compiler.compose block.body
      = templateHead ++ preamble ++ "\n\\begin\x7bdocument\x7d\n" ++ block.body
        ++ "\n\\end\x7bdocument\x7d\n"
  files
    : before.compiler.pngFor block = first.pathOf (id ++ ".png")
      ∧ before.compiler.pdfFor block
        = if block.wantPdf then some (first.pathOf (id ++ ".pdf")) else none
  text
    : text = imageReference block.alt (first.relative (id ++ ".png"))
        (if block.wantPdf then some (first.relative (id ++ ".pdf")) else none)
  kept
    : before.keeps block = true →
        after.compiler.usage = before.compiler.usage.hit ∧ after.bench = before.bench
  rendered
    : before.keeps block = false →
        after.compiler.usage = before.compiler.usage.miss
        ∧ after.bench.calls
          = before.bench.calls
            ++ callsFor (pathTo (freshScratch before.bench.files)) first.baseDir
              (first.pathOf (id ++ ".png")) (before.compiler.compose block.body)

/-- What becomes of one of the regions behind earlier ones: there is no text for a block that
extends the preamble, and the image of another one has the name that is next.
-/
structure Follows (first : Compiler) (raws earlier : List String) (block : Block) (text : String)
    (before after : Workshop) : Prop where
  silent : text = "" ↔ block.isPreamble = true
  unasked
    : block.isPreamble = true →
        after.compiler.usage = before.compiler.usage ∧ after.bench = before.bench
  drawn
    : block.isPreamble = false →
        ∃ id,
          (idsOf raws)[(imagesOf earlier).length]? = some id
          ∧ Draws first (preambleOf earlier) id block text before after

/-- What becomes of regions that are all compiled: their names and the places of their files are
different, all images are counted, and each region follows the earlier ones.
-/
structure InOrder (renderer : Renderer) (start : Workshop) (raws texts : List String)
    (last : Workshop) : Prop where
  length : texts.length = raws.length
  named : (idsOf raws).length = (imagesOf raws).length
  distinct : (idsOf raws).Nodup
  plain : ∀ id ∈ idsOf raws, IsPlain id
  apart
    : ∀ here,
        (((idsOf raws).flatMap filesOf).map fun file =>
          (start.compiler.pathOf file).place here).Nodup
  total : last.compiler.usage.total = (imagesOf raws).length
  region
    : ∀ earlier raw later,
        raws = earlier ++ raw :: later
        → ∃ block front text back before after,
            Block.parse? raw = some block
            ∧ texts = front ++ text :: back
            ∧ compileRegions renderer earlier start = (.ok front, before)
            ∧ compileRegion renderer raw before = (.ok text, after)
            ∧ compileRegions renderer later after = (.ok back, last)
            ∧ Follows start.compiler raws earlier block text before after

section

variable {raws earlier later : List String} {raw : String} {block : Block}

/-- The name of an image is the first free one behind those of the earlier images. -/
theorem getElem?_idsOf (parsed : Block.parse? raw = some block)
    (showing : block.isPreamble = false)
    : (idsOf (earlier ++ raw :: later))[(imagesOf earlier).length]?
      = some (unique (imageBase block.alt) (Registry.empty.after (basesOf earlier)).taken) := by
  have base : basesOf [raw] = [imageBase block.alt] := by
    rw [basesOf, (asked_of_parse? parsed).1, showing]
    rfl
  have bases : basesOf (earlier ++ raw :: later)
      = basesOf earlier ++ imageBase block.alt :: basesOf later := by
    change basesOf (earlier ++ ([raw] ++ later)) = _
    rw [basesOf_append, basesOf_append, base]
    rfl
  have length : (basesOf earlier).length = (imagesOf earlier).length := List.length_map _
  rw [idsOf, bases, ← length, Registry.getElem?_claimAll]

/-- The markdown that stands in for a block is not empty. -/
theorem referenceFor_ne_empty (compiler : Compiler) (block : Block)
    : compiler.referenceFor block ≠ "" := by
  intro empty
  have texts := congrArg String.toList empty
  simp only [Compiler.referenceFor, imageReference] at texts
  split at texts <;> simp at texts

/-- How the region of an image was compiled. -/
theorem Turned.image {shop after : Workshop} {text : String}
    (turn : Turned raw shop (.ok text, after)) (parsed : Block.parse? raw = some block)
    (showing : block.isPreamble = false)
    : text = shop.compiler.referenceFor block
      ∧ (shop.keeps block = true →
          after.compiler.usage = shop.compiler.usage.hit ∧ after.bench = shop.bench)
      ∧ (shop.keeps block = false →
          after.compiler.usage = shop.compiler.usage.miss
          ∧ after.bench.calls = shop.bench.calls ++ shop.callsFor block) := by
  cases turn with
  | extended again extending =>
      cases again.symm.trans parsed
      cases extending.symm.trans showing
  | kept again _ current =>
      cases again.symm.trans parsed
      refine ⟨rfl, fun _ => ⟨rfl, rfl⟩, fun stale => ?_⟩
      cases stale.symm.trans current
  | rendered again _ stale =>
      cases again.symm.trans parsed
      refine ⟨rfl, fun current => ?_, fun _ => ⟨rfl, rfl⟩⟩
      cases stale.symm.trans current

/-- The image of a block behind earlier regions is drawn as they tell. -/
theorem draws_of_learns {first : Compiler} {before after : Workshop} {text : String}
    (unextended : first.preamble = "") (unnamed : first.names = .empty)
    (learned : Learns earlier first before.compiler) (turn : Turned raw before (.ok text, after))
    (parsed : Block.parse? raw = some block) (showing : block.isPreamble = false)
    : Draws first (preambleOf earlier)
        (unique (imageBase block.alt) (Registry.empty.after (basesOf earlier)).taken) block text
        before after := by
  obtain ⟨rfl, kept, rendered⟩ := turn.image parsed showing
  have relative : before.compiler.relative = first.relative := by
    funext file
    simp only [Compiler.relative, learned.imageDir]
  have pathOf : before.compiler.pathOf = first.pathOf := by
    funext file
    simp only [Compiler.pathOf, relative, learned.baseDir]
  have id : before.compiler.nextId block.alt
      = unique (imageBase block.alt) (Registry.empty.after (basesOf earlier)).taken := by
    rw [Compiler.nextId, learned.names, unnamed]
    rfl
  rw [Workshop.callsFor, Compiler.pngFor, pathOf, id, learned.baseDir] at rendered
  refine ⟨?_, ⟨?_, ?_⟩, ?_, kept, rendered⟩
  · rw [Compiler.compose, learned.preamble, unextended, String.empty_append]
  · rw [Compiler.pngFor, pathOf, id]
  · rw [Compiler.pdfFor, pathOf, id]
  · rw [Compiler.referenceFor, relative, id]

/-- A region behind earlier ones that has been compiled follows them. -/
theorem follows_of_learns (later : List String) {first : Compiler} {before after : Workshop}
    {text : String} (unextended : first.preamble = "") (unnamed : first.names = .empty)
    (learned : Learns earlier first before.compiler) (turn : Turned raw before (.ok text, after))
    : ∃ block,
        Block.parse? raw = some block
        ∧ Follows first (earlier ++ raw :: later) earlier block text before after := by
  have image {block : Block} (parsed : Block.parse? raw = some block)
      (showing : block.isPreamble = false)
      : Follows first (earlier ++ raw :: later) earlier block text before after := by
    obtain ⟨rfl, _⟩ := turn.image parsed showing
    refine ⟨⟨fun silent => absurd silent (referenceFor_ne_empty _ _), fun extending => ?_⟩, ?_, ?_⟩
    · cases extending.symm.trans showing
    · intro extending
      cases extending.symm.trans showing
    · intro _
      exact ⟨_, getElem?_idsOf parsed showing,
        draws_of_learns unextended unnamed learned turn parsed showing⟩
  cases turn with
  | extended parsed extending =>
      refine ⟨_, parsed, ⟨fun _ => extending, fun _ => rfl⟩, fun _ => ⟨rfl, rfl⟩, fun showing => ?_⟩
      cases extending.symm.trans showing
  | kept parsed showing => exact ⟨_, parsed, image parsed showing⟩
  | rendered parsed showing => exact ⟨_, parsed, image parsed showing⟩

end

/-- Regions that a new compiler compiles one after another become texts, images and calls of the
renderer in their order. A body in which a region fails leads to the error of the first one that
does, and the renderer is not called behind it.
-/
theorem compileRegions_in_order (renderer : Renderer)
    : (∀ baseDir imageDir bench raws texts last,
        compileRegions renderer raws ⟨.start baseDir imageDir, bench⟩ = (.ok texts, last)
        → InOrder renderer ⟨.start baseDir imageDir, bench⟩ raws texts last)
      ∧ ∀ body shop error last,
          expand renderer body shop = (.error error, last)
          ↔ ∃ earlier raw later texts before,
              regionsOf (parts body.toList) = earlier ++ raw :: later
              ∧ compileRegions renderer earlier shop = (.ok texts, before)
              ∧ compileRegion renderer raw before = (.error error, last)
              ∧ ∃ made,
                  made <+: before.callsOf raw ∧ last.bench.calls = before.bench.calls ++ made := by
  constructor
  · intro baseDir imageDir bench raws texts last compiled
    have learned := learns_regions compiled
    refine {
      length := length_of_compileRegions compiled
      named := ?_
      distinct := (Registry.empty.nodup_claimAll _).1
      plain := isPlain_of_mem_idsOf
      apart := nodup_places _ raws
      total := learned.total.trans (Nat.zero_add _)
      region := ?_ }
    · rw [idsOf, Registry.length_claimAll, basesOf, List.length_map]
    · rintro earlier raw later rfl
      obtain ⟨front, others, before, rfl, prefixed, rest⟩ :=
        compileRegions_append_eq_ok_iff.mp compiled
      obtain ⟨text, back, after, rfl, region, behind⟩ := compileRegions_cons_eq_ok_iff.mp rest
      have turn := turned renderer raw before
      rw [region] at turn
      obtain ⟨block, parsed, follows⟩ :=
        follows_of_learns later rfl rfl (learns_regions prefixed) turn
      exact ⟨block, front, text, back, before, after, parsed, rfl, prefixed, region, behind,
        follows⟩
  · intro body shop error last
    rw [expand, expandParts_eq_error_iff, compileRegions_eq_error_iff]
    constructor
    · rintro ⟨earlier, raw, later, texts, before, cut, compiled, failed⟩
      have begun := exists_calls_of_error failed
      exact ⟨earlier, raw, later, texts, before, cut, compiled, failed, begun⟩
    · rintro ⟨earlier, raw, later, texts, before, cut, compiled, failed, _⟩
      exact ⟨earlier, raw, later, texts, before, cut, compiled, failed⟩

end

section

open scoped Publication.StandIns

/-- The regions of a preamble and a plot are compiled on an empty desk, and a region that is not
closed fails behind the preamble.
-/
theorem compileRegions_note
    : (∃ texts last,
        compileRegions sketcher [String.ofList preambleRegion, String.ofList plotRegion]
            ⟨.start ⟨"."⟩ ".", emptyDesk⟩
          = (.ok texts, last)
        ∧ InOrder sketcher ⟨.start ⟨"."⟩ ".", emptyDesk⟩
            [String.ofList preambleRegion, String.ofList plotRegion] texts last)
      ∧ expand sketcher (String.ofList (preambleRegion ++ '\n' :: openRegion))
          ⟨.start ⟨"."⟩ ".", emptyDesk⟩
        = (.error (.malformed (String.ofList openRegion)), ⟨plotCompiler, emptyDesk⟩) := by
  have none_behind (shop : Workshop) : compileRegions sketcher [] shop = (.ok [], shop) := rfl
  constructor
  · obtain ⟨text, last, drawn⟩ := exists_compileBlock_plot
    have showing : plotBlock.isPreamble = false := by decide +kernel
    have second : compileRegion sketcher (String.ofList plotRegion) ⟨plotCompiler, emptyDesk⟩
        = (.ok text, last) := by
      simp only [compileRegion, parse?_note.2, showing, Bool.false_eq_true, if_false]
      exact drawn
    have compiled := compileRegions_cons_eq_ok_iff.mpr ⟨_, _, _, rfl, compileRegion_preamble,
      compileRegions_cons_eq_ok_iff.mpr ⟨_, _, _, rfl, second, none_behind last⟩⟩
    exact ⟨_, last, compiled, (compileRegions_in_order sketcher).1 _ _ _ _ _ _ compiled⟩
  · have cut : regionsOf (parts (String.ofList (preambleRegion ++ '\n' :: openRegion)).toList)
        = [String.ofList preambleRegion] ++ String.ofList openRegion :: [] := by
      decide +kernel
    have unparsed : Block.parse? (String.ofList openRegion) = none := by decide +kernel
    have failed : compileRegion sketcher (String.ofList openRegion) ⟨plotCompiler, emptyDesk⟩
        = (.error (.malformed (String.ofList openRegion)), ⟨plotCompiler, emptyDesk⟩) := by
      simp only [compileRegion, unparsed]
      rfl
    exact ((compileRegions_in_order sketcher).2 _ _ _ _).mpr ⟨_, _, _, _, _, cut,
      compileRegions_cons_eq_ok_iff.mpr ⟨_, _, _, rfl, compileRegion_preamble, none_behind _⟩,
      failed, [], List.nil_prefix, rfl⟩

end

end Publication.Latex
