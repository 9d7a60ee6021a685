import Publication.Article.Compile
import Publication.Proofs.Article.Thumbnails
import Publication.Proofs.Latex.Recompilation
import Publication.Proofs.Latex.Sketch
import Publication.Text.Transliteration.Table

/-! Compiling a manuscript again. What a compilation writes does not get in its own way: all images
are kept, the thumbnail is made again as it was, and the article is the same.
-/

namespace Publication

open Publication.Document
open Publication.Latex (Bench Block Call Compiler IsFileOf Renderer Steady Usage adapt_eq_ok_iff
  bind_of_ok bind_eq_ok_iff sketcher)

-----------------------------------------------------------------------------------------
-- Thumbnails and images
-----------------------------------------------------------------------------------------

/-- A thumbnail is none of the files of an image. -/
theorem not_isFileOf_thumbnail (id stem : String) : ¬ IsFileOf id (stem ++ ".thumb.png") := by
  rintro ⟨proper, whole | whole⟩
  all_goals
    have texts := congrArg String.toList whole
    have split : stem ++ ".thumb.png" = (stem ++ ".thumb") ++ ".png" := by
      simp [String.append_assoc]
    rw [split] at texts
    simp only [String.toList_append] at texts
    have name := (List.append_inj' texts (by simp)).1
    exact proper.2 (by rw [← name]; simp)

/-- The making of a thumbnail leaves the images of a compiler as they are. -/
theorem retains_of_createThumbnail [Image.Scaler] (compiler : Compiler) {fs after : FileSystem}
    {source : Path} {edge : Nat}
    (made : Image.createThumbnail fs source (Image.thumbnailPath source) edge = .ok after)
    : compiler.Retains fs after := by
  intro id _ file belongs entry found
  obtain ⟨⟨_, filled⟩, _⟩ := Image.createThumbnail_again made
  obtain ⟨stem, _, leads⟩ := Image.exists_name_thumbnailPath source
  obtain ⟨⟨dir, there⟩, _⟩ := leads fs.here
  obtain ⟨place, located, held⟩ := (FileSystem.at?_eq_ok_iff _ _ _).mp found
  refine (FileSystem.at?_eq_ok_iff _ _ _).mpr
    ⟨place, (filled.locate_iff _ _).mpr located, filled.frame.entry?_eq_some ?_ held⟩
  rintro rfl
  obtain ⟨folder, _, images⟩ := compiler.folder_pathOf.leads fs.here
  have same := ((FileSystem.locate_eq_ok_iff _ _ _).mp located).2.2
  rw [(images file belongs.isName.1).1, there] at same
  have whole : file = stem ++ ".thumb.png" := (List.append_singleton_inj.mp same).2
  exact not_isFileOf_thumbnail id stem (whole ▸ belongs)

section

variable [Image.Scaler] {settings : ThumbnailSettings} {dir : Path} {manifest : Manifest}
  {bench after : Bench}

/-- The image of an article is seen to again with the same result and without a change. -/
theorem cover_again {image : String} {covered : String × Manifest}
    (done : cover settings dir manifest image bench = (.ok covered, after))
    : (∀ compiler : Compiler, compiler.Retains bench.files after.files)
      ∧ ∀ calls,
          cover settings dir manifest image ⟨after.files, calls⟩
          = (.ok covered, ⟨after.files, calls⟩) := by
  have same (compiler : Compiler) (fs : FileSystem) : compiler.Retains fs fs :=
    fun _ _ _ _ _ found => found
  cases named : Path.ofReference? image dir with
  | none =>
      simp only [cover, named] at done ⊢
      cases done
      exact ⟨fun compiler => same compiler _, fun _ => rfl⟩
  | some source =>
      cases enabled : settings.enabled with
      | false =>
          simp only [cover, named, enabled, Bool.false_eq_true, if_false] at done ⊢
          cases done
          exact ⟨fun compiler => same compiler _, fun _ => rfl⟩
      | true =>
          simp only [cover, named, enabled, if_true] at done ⊢
          obtain ⟨_, middle, revised, ended⟩ := bind_eq_ok_iff.mp done
          cases ended
          rw [adapt_eq_ok_iff] at revised
          obtain ⟨files, made, rfl⟩ := Latex.revise_eq_ok revised
          refine ⟨fun compiler => retains_of_createThumbnail compiler made, fun calls => ?_⟩
          have again := (Image.createThumbnail_again made).2
          exact bind_of_ok ((adapt_eq_ok_iff _).mpr (Latex.revise_of_ok again))

/-- The image of an article, if there is one, is seen to again with the same result. -/
theorem cover?_again {image : Option String} {covered : Option String × Manifest}
    (done : cover? settings dir manifest image bench = (.ok covered, after))
    : (∀ compiler : Compiler, compiler.Retains bench.files after.files)
      ∧ ∀ calls,
          cover? settings dir manifest image ⟨after.files, calls⟩
          = (.ok covered, ⟨after.files, calls⟩) := by
  cases image with
  | none =>
      cases done
      exact ⟨fun _ _ _ _ _ _ found => found, fun _ => rfl⟩
  | some image =>
      obtain ⟨⟨address, manifest⟩, middle, done, ended⟩ := bind_eq_ok_iff.mp done
      cases ended
      obtain ⟨retained, again⟩ := cover_again done
      exact ⟨retained, fun calls => bind_of_ok (again calls)⟩

end

-----------------------------------------------------------------------------------------
-- Manuscripts
-----------------------------------------------------------------------------------------

section

variable [Transliteration]

/-- The article of a manuscript whose regions have become markdown, once its image is seen to. -/
def articleOf (manuscript : Manuscript) (markdown : String) (usage : Usage)
    (image : Option String) (manifest : Manifest) : Article :=
  let header := (Header.split manuscript.text).1
  let document := Document.parse markdown
  let linked := (extractResources document manuscript.name manuscript.dir).2
  let (contents, anchored) := extractContents linked
  { name := manuscript.name
    html := Html.render anchored
    contents := contents
    record := recordOf header contents manuscript.name (abstract document) image
    resources := manifest.entries
    includes := (header.values "include").map (includePath manuscript.dir)
    usage := usage }

/-- An article tells how many images were found and rendered, and nothing else in it does. -/
theorem articleOf_usage (manuscript : Manuscript) (markdown : String) (usage other : Usage)
    (image : Option String) (manifest : Manifest)
    : (articleOf manuscript markdown usage image manifest).usage = usage
      ∧ { articleOf manuscript markdown usage image manifest with usage := other }
        = articleOf manuscript markdown other image manifest := by
  simp only [articleOf, and_self]

variable [Image.Scaler]

/-- A compilation expands the regions of a manuscript and then sees to its image. -/
theorem compile_eq (renderer : Renderer) (config : Config) (manuscript : Manuscript)
    : compile renderer config manuscript
      = (do
          let expanded ← ExceptT.adapt .latex
            (Latex.expandDocument renderer manuscript.dir config.latex.imageDir
              (Header.split manuscript.text).2)
          let covered ← cover? config.thumbnails manuscript.dir
            (extractResources (Document.parse expanded.1) manuscript.name manuscript.dir).1
            (Header.resolve [(Header.split manuscript.text).1.first "img"])
          return articleOf manuscript expanded.1 expanded.2 covered.1 covered.2) := by
  unfold compile articleOf
  dsimp only

/-- A manuscript that has been compiled is compiled to the same article again, with any renderer:
without a call of a tool or a change of a file, and with all of its images found.
-/
theorem compile_again {renderer : Renderer} {config : Config} {manuscript : Manuscript}
    {bench after : Bench} {article : Article} (steady : Steady renderer)
    (compiled : compile renderer config manuscript bench = (.ok article, after))
    (other : Renderer) (calls : List Call)
    : compile other config manuscript ⟨after.files, calls⟩
      = (.ok { article with usage := ⟨article.usage.hits + article.usage.misses, 0⟩ },
          ⟨after.files, calls⟩) := by
  rw [compile_eq] at compiled ⊢
  obtain ⟨expanded, middle, first, rest⟩ := bind_eq_ok_iff.mp compiled
  obtain ⟨covered, last, second, ended⟩ := bind_eq_ok_iff.mp rest
  obtain ⟨rfl, rfl⟩ := Latex.pure_eq_ok_iff.mp ended
  obtain ⟨compiler, again⟩ := steady.expandDocument_again ((adapt_eq_ok_iff _).mp first)
  obtain ⟨retained, seen⟩ := cover?_again second
  obtain ⟨count, recounted⟩ := articleOf_usage manuscript expanded.1 expanded.2
    ⟨expanded.2.hits + expanded.2.misses, 0⟩ covered.1 covered.2
  rw [count, recounted]
  have expandedAgain := again other last.files calls (retained compiler)
  rw [bind_of_ok ((adapt_eq_ok_iff CompileError.latex).mpr expandedAgain)]
  exact bind_of_ok (seen calls)

end

-----------------------------------------------------------------------------------------
-- A note
-----------------------------------------------------------------------------------------

section

open scoped Publication.StandIns

/-- The renderer without tools writes what it is asked for, and its images keep a hash. -/
theorem steady_sketcher : Steady sketcher where
  confined := Latex.confined_sketcher
  storable := by
    intro calls job fs after bytes drawn read target changed png source present stored
    rcases Latex.sketcher_rasterize_cases calls job fs with
      ⟨octets, made, _, ended, filled⟩ | ⟨error, ended⟩
    · obtain ⟨_, rfl⟩ := Prod.mk.inj (ended.symm.trans drawn)
      obtain rfl : Latex.dotBytes (Latex.toneOf octets) = bytes :=
        Except.ok.inj (filled.read.symm.trans read)
      exact (Latex.survives_dot _ (.refl _) _ _ _ _ _ present (Latex.read?_dotBytes _) stored).1
    · cases ended.symm.trans drawn

/-- A region that extends the preamble. -/
def preambleRegion : List Char :=
  "\\begin\x7blatex\x7d[<preamble>]\n\\usepackage\x7bbm\x7d\n\\end\x7blatex\x7d\n".toList

/-- A region for a plot and its document. -/
def plotRegion : List Char :=
  "\\begin\x7blatex\x7d[Plot --pdf]\nx\n\\end\x7blatex\x7d\n".toList

/-- A manuscript of these regions. -/
def plotNote : Manuscript where
  name := "note"
  dir := ⟨"."⟩
  text := String.ofList (preambleRegion ++ '\n' :: plotRegion)

/-- The block of the plot. -/
def plotBlock : Block := ⟨"Plot", "\nx\n", true⟩

/-- The compiler that has seen the preamble of the note. -/
def plotCompiler : Compiler where
  baseDir := ⟨"."⟩
  imageDir := "."
  preamble := "\n\\usepackage\x7bbm\x7d\n"

/-- The request for the image of the plot. -/
def plotRequest : Latex.Request where
  compiler := plotCompiler.claim plotBlock.alt
  renderer := sketcher
  body := plotBlock.body
  png := plotCompiler.pngFor plotBlock
  pdf := plotCompiler.pdfFor plotBlock

/-- The plot can be compiled on an empty desk. -/
theorem exists_compileBlock_plot
    : ∃ text shop,
        Latex.compileBlock sketcher plotBlock ⟨plotCompiler, Latex.emptyDesk⟩
          = (.ok text, shop) := by
  have blank : Latex.storedHash Latex.emptyDesk.files plotRequest.png = none := by
    decide +kernel
  have performed := @Latex.perform_of_render plotRequest Latex.emptyDesk rfl (by decide +kernel)
    (by rw [Latex.isCurrent, blank]; exact Bool.and_false _) (by decide +kernel)
    (by decide +kernel)
  obtain ⟨compiler, made⟩ := Latex.Request.exists_renderOrReuse_of_perform performed
  rw [Latex.compileBlock_eq]
  exact ⟨_, _, bind_of_ok made⟩

/-- The note has no header. -/
theorem split_note
    : Latex.parts (Header.split plotNote.text).2.toList
        = [.latex preambleRegion, .markdown ['\n'], .latex plotRegion]
      ∧ Header.resolve [(Header.split plotNote.text).1.first "img"] = none := by
  simp only [Header.split, plotNote, String.toList_ofList]
  decide +kernel

theorem parse?_note
    : Block.parse? (String.ofList preambleRegion)
        = some ⟨Latex.preambleAlt, "\n\\usepackage\x7bbm\x7d\n", false⟩
      ∧ Block.parse? (String.ofList plotRegion) = some plotBlock := by
  decide +kernel

/-- The preamble of the note is read by its compiler. -/
theorem compileRegion_preamble
    : Latex.compileRegion sketcher (String.ofList preambleRegion)
          ⟨.start ⟨"."⟩ ".", Latex.emptyDesk⟩
        = (.ok "", ⟨plotCompiler, Latex.emptyDesk⟩) := by
  have extending : Block.isPreamble
      ⟨Latex.preambleAlt, "\n\\usepackage\x7bbm\x7d\n", false⟩ = true := by
    decide +kernel
  have extended : { Compiler.start ⟨"."⟩ "." with
      preamble := "" ++ "\n\\usepackage\x7bbm\x7d\n" } = plotCompiler := by
    decide +kernel
  rw [← extended]
  simp only [Latex.compileRegion, parse?_note.1, extending, if_true]
  rfl

/-- The regions of the note can be compiled on an empty desk. -/
theorem exists_expandDocument_note {body : String}
    (cut
      : Latex.parts body.toList = [.latex preambleRegion, .markdown ['\n'], .latex plotRegion])
    : ∃ markdown usage after,
        Latex.expandDocument sketcher ⟨"."⟩ "." body Latex.emptyDesk
          = (.ok (markdown, usage), after) := by
  obtain ⟨text, shop, made⟩ := exists_compileBlock_plot
  have second : Latex.compileRegion sketcher (String.ofList plotRegion)
      ⟨plotCompiler, Latex.emptyDesk⟩ = (.ok text, shop) := by
    have showing : plotBlock.isPreamble = false := by
      decide +kernel
    simp only [Latex.compileRegion, parse?_note.2, showing, Bool.false_eq_true, if_false]
    exact made
  have rest : Latex.expandParts sketcher [.markdown ['\n'], .latex plotRegion]
      ⟨plotCompiler, Latex.emptyDesk⟩ = (.ok (String.ofList ['\n'] ++ (text ++ "")), shop) :=
    bind_eq_ok_iff.mpr ⟨_, _, bind_eq_ok_iff.mpr ⟨_, _, second, rfl⟩, rfl⟩
  have whole : Latex.expand sketcher body ⟨.start ⟨"."⟩ ".", Latex.emptyDesk⟩
      = (.ok ("" ++ (String.ofList ['\n'] ++ (text ++ ""))), shop) := by
    rw [Latex.expand, cut]
    exact bind_eq_ok_iff.mpr
      ⟨_, _, compileRegion_preamble, bind_eq_ok_iff.mpr ⟨_, _, rest, rfl⟩⟩
  simp only [Latex.expandDocument, whole]
  exact ⟨_, _, _, rfl⟩

/-- The note can be compiled on an empty desk. -/
theorem exists_compile_note
    : ∃ article after, compile sketcher {} plotNote Latex.emptyDesk = (.ok article, after) := by
  obtain ⟨markdown, usage, after, expanded⟩ := exists_expandDocument_note split_note.1
  have made : Latex.expandDocument sketcher plotNote.dir ({} : Config).latex.imageDir
      (Header.split plotNote.text).2 Latex.emptyDesk = (.ok (markdown, usage), after) :=
    expanded
  have seen (manifest : Manifest)
      : cover? {} plotNote.dir manifest none after = (.ok (none, manifest), after) :=
    rfl
  rw [compile_eq, split_note.2, bind_of_ok ((adapt_eq_ok_iff CompileError.latex).mpr made),
    bind_of_ok (seen _)]
  exact ⟨_, _, Latex.pure_eq_ok_iff.mpr ⟨rfl, rfl⟩⟩

/-- The note is compiled to the same article again, with its one image found. -/
theorem compile_note_again
    : ∃ article after,
        compile sketcher {} plotNote Latex.emptyDesk = (.ok article, after)
        ∧ compile sketcher {} plotNote ⟨after.files, []⟩
          = (.ok { article with usage := ⟨article.usage.hits + article.usage.misses, 0⟩ },
              ⟨after.files, []⟩) := by
  obtain ⟨article, after, compiled⟩ := exists_compile_note
  exact ⟨article, after, compiled, compile_again steady_sketcher compiled sketcher []⟩

end

end Publication
