import Publication.Proofs.Latex.Sketch

/-! Typeset documents over whole runs. A request with a document leaves the one that was copied to
its path last: an image that is current is kept without a look at what the document was typeset
from. So the document is that of the request exactly if the last one copied there was.
-/

namespace Publication.Latex

open Publication.FileSystem (Frame)
open Publication.Hash

-----------------------------------------------------------------------------------------
-- One request
-----------------------------------------------------------------------------------------

/-- The tools of a renderer, which make documents of sources and write nothing but their results. -/
structure Delivers (document : String → List UInt8) (renderer : Renderer) : Prop where
  typesets : Typesets document renderer.typeset
  spares : Spares document renderer.rasterize
  confined : Confined renderer

/-- A place that is in no scratch directory, nor one itself. -/
def OutsideScratch (place : Location) : Prop :=
  ∀ scratch, IsScratch scratch → ¬ scratch <+: place

section

variable {document : String → List UInt8} {renderer : Renderer} {baseDir png path : Path}
  {source : String} {bench after : Bench}

/-- When the scratch directory is dropped after rendering has succeeded, the document of the source
is at its path.
-/
theorem Delivers.exists_drop_of_render (delivers : Delivers document renderer)
    (image : OutsideScratch (png.place bench.files.here))
    (outside : OutsideScratch (path.place bench.files.here))
    (rendered : render renderer baseDir source png (some path) bench = (.ok (), after))
    : ∃ (scratch : Location) (middle : FileSystem),
        IsScratch scratch
        ∧ middle.here = bench.files.here
        ∧ middle.read path = .ok (document source)
        ∧ after.files = middle.drop scratch := by
  obtain ⟨scratch, files, middle, named, made, inside, dropped⟩ :=
    exists_renderIn_of_render rendered
  have proper : IsScratch scratch := by
    rw [named]
    exact isScratch_freshScratch bench.files
  have typesetPlace (here : Location)
      : ((pathTo scratch).child "file.pdf").place here = scratch ++ ["file.pdf"] := by
    rw [place_child _ (by decide), place_pathTo proper]
  rw [renderIn_some] at inside
  obtain ⟨_, before, done, copied⟩ := bind_eq_ok_iff.mp inside
  have here : before.files.here = bench.files.here :=
    (delivers.confined.frame_renderIn_none proper done).here.trans
      (FileSystem.frame_of_makeDirectory made).here
  obtain ⟨calls, fs, found, drawn⟩ := exists_rasterize_of_renderIn done
  have away : ((pathTo scratch).child "file.pdf").place before.files.here
      ≠ png.place before.files.here := by
    rw [typesetPlace, here]
    exact fun same => image scratch proper (same ▸ List.prefix_append _ _)
  have spared := delivers.spares calls ⟨(pathTo scratch).child "file.pdf", png, pathTo scratch⟩ fs
    before.files source (found document delivers.typesets) drawn away
  obtain ⟨octets, taken, filled⟩ := FileSystem.filled_of_copy (onFiles_perform_eq_ok copied)
  obtain rfl : octets = document source := Except.ok.inj (taken.symm.trans spared)
  have apart : path.place before.files.here
      ≠ ((pathTo scratch).child "file.pdf").place before.files.here := by
    rw [typesetPlace, here]
    exact fun same => outside scratch proper (same ▸ List.prefix_append _ _)
  rw [if_neg apart] at filled
  exact ⟨scratch, middle.files, proper, filled.here.trans here, filled.read, dropped⟩

end

-----------------------------------------------------------------------------------------
-- What a place holds
-----------------------------------------------------------------------------------------

/-- The file at a place is the document of a source, or there is no file for no source. -/
def Holds (document : String → List UInt8) (fs : FileSystem) (place : Location)
    (last : Option String) : Prop :=
  ∀ bytes,
    (∃ executable, fs.entry? place = some (.file bytes executable))
    ↔ last.map document = some bytes

section

variable {document : String → List UInt8}

/-- A place holds what it held if its files are the same. -/
theorem Holds.of_frame {region : Location → Prop} {before after : FileSystem} {place : Location}
    {last : Option String} (holds : Holds document before place last)
    (frame : Frame region before after) (outside : ¬ region place)
    : Holds document after place last := by
  intro bytes
  rw [← holds bytes]
  exact exists_congr fun executable => frame.file_iff outside bytes executable

/-- A place without a file holds nothing. -/
theorem holds_none {fs : FileSystem} {place : Location}
    (empty : ∀ bytes executable, fs.entry? place ≠ some (.file bytes executable))
    : Holds document fs place none := by
  intro bytes
  constructor
  · rintro ⟨executable, held⟩
    exact absurd held (empty bytes executable)
  · intro none
    cases none

/-- A place where a document is read holds it. -/
theorem holds_of_read {fs : FileSystem} {path : Path} {source : String}
    (read : fs.read path = .ok (document source))
    : Holds document fs (path.place fs.here) (some source) := by
  obtain ⟨place, executable, led, held⟩ := (FileSystem.read_eq_ok_iff fs path _).mp read
  rw [((FileSystem.locate_eq_ok_iff fs path place).mp led).2.2]
  intro bytes
  rw [held]
  constructor
  · rintro ⟨_, same⟩
    cases same
    rfl
  · intro same
    cases same
    exact ⟨executable, rfl⟩

/-- What is read at a path that leads somewhere is what its place holds. -/
theorem Holds.read_iff {fs : FileSystem} {path : Path} {last : Option String} {place : Location}
    (holds : Holds document fs (path.place fs.here) last) (led : fs.locate path = .ok place)
    (bytes : List UInt8)
    : fs.read path = .ok bytes ↔ last.map document = some bytes := by
  rw [← holds bytes, FileSystem.read_eq_ok_iff,
    ((FileSystem.locate_eq_ok_iff fs path place).mp led).2.2]
  constructor
  · rintro ⟨found, executable, again, held⟩
    obtain rfl : place = found := Except.ok.inj (led.symm.trans again)
    exact ⟨executable, held⟩
  · rintro ⟨executable, held⟩
    exact ⟨place, executable, led, held⟩

end

-----------------------------------------------------------------------------------------
-- Runs
-----------------------------------------------------------------------------------------

/-- Whether a document that was asked for has been copied when a request has ended so. -/
def hasCopied : Except Error Outcome → Bool
  | .ok .rendered => true
  | .error (.cache _) => true
  | _ => false

/-- Whether a request copies its document to a place. -/
def Request.copiesTo (request : Request) (place : Location) (bench : Bench) : Bool :=
  hasCopied (request.perform bench).1
    && request.pdf.map (·.place bench.files.here) == some place

/-- The source of the document that is copied to a place last when requests are made one after
another, or the given one if none is.
-/
def copiedLast (place : Location) : List Request → Bench → Option String → Option String
  | [], _, last => last
  | request :: rest, bench, last =>
      copiedLast place rest (request.perform bench).2
        (if request.copiesTo place bench then some request.source else last)

section

variable {document : String → List UInt8} {place : Location} {request : Request}
  {requests : List Request} {bench : Bench} {last : Option String}

/-- A place holds the document that was copied there last, after a rendering as before it. -/
theorem Holds.render {after : Bench} {result : Except RenderError Unit}
    (holds : Holds document bench.files place last)
    (delivers : Delivers document request.renderer) (outside : OutsideScratch place)
    (image : OutsideScratch (request.png.place bench.files.here))
    (apart : place ≠ request.png.place bench.files.here)
    (rendered : request.render bench = (result, after))
    : Holds document after.files place
        (if result = .ok () ∧ request.pdf.map (·.place bench.files.here) = some place
          then some request.source else last) := by
  obtain ⟨scratch, proper, _, frame⟩ := delivers.confined.frame_render rendered
  split
  next copied =>
      obtain ⟨rfl, there⟩ := copied
      obtain ⟨path, asked, rfl⟩ := Option.map_eq_some_iff.mp there
      rw [Request.render, asked] at rendered
      obtain ⟨scratch, middle, proper, here, read, same⟩ :=
        delivers.exists_drop_of_render image outside rendered
      have holds := holds_of_read read
      rw [here] at holds
      rw [same]
      exact holds.of_frame (FileSystem.frame_drop middle scratch) (outside scratch proper)
  next kept =>
      refine holds.of_frame frame ?_
      rintro (inside | same | ⟨ended, path, asked, same⟩)
      · exact outside scratch proper inside
      · exact apart same
      · refine kept ⟨ended, ?_⟩
        rw [show request.pdf = some path from asked, same]
        rfl

/-- A place holds the document that was copied there last, after a request as before it. -/
theorem Holds.perform (holds : Holds document bench.files place last)
    (delivers : Delivers document request.renderer) (outside : OutsideScratch place)
    (image : OutsideScratch (request.png.place bench.files.here))
    (apart : place ≠ request.png.place bench.files.here)
    : (request.perform bench).2.files.here = bench.files.here
      ∧ Holds document (request.perform bench).2.files place
          (if request.copiesTo place bench then some request.source else last) := by
  have rendering {result : Except RenderError Unit} {after : Bench}
      (rendered : request.render bench = (result, after))
      : after.files.here = bench.files.here := by
    obtain ⟨_, _, _, frame⟩ := delivers.confined.frame_render rendered
    exact frame.here
  rcases request.perform_cases bench with
    ⟨_, ended⟩ | ⟨error, after, failed, ended⟩ | ⟨error, after, drawn, ended⟩
    | ⟨after, files, drawn, stored, ended⟩
  · rw [Request.copiesTo, ended]
    exact ⟨rfl, by simpa [hasCopied] using holds⟩
  · rw [Request.copiesTo, ended]
    refine ⟨rendering failed, ?_⟩
    simpa [hasCopied] using holds.render delivers outside image apart failed
  · rw [Request.copiesTo, ended]
    refine ⟨rendering drawn, ?_⟩
    simpa [hasCopied] using holds.render delivers outside image apart drawn
  · rw [Request.copiesTo, ended]
    obtain ⟨_, filled⟩ := filled_of_storeHash stored
    have kept := (holds.render delivers outside image apart drawn).of_frame filled.frame
      (by
        rw [rendering drawn]
        exact apart)
    exact ⟨filled.here.trans (rendering drawn), by simpa [hasCopied] using kept⟩

/-- A place holds the document that was copied there last, after requests as before them, by
induction on them.
-/
theorem Holds.run (holds : Holds document bench.files place last)
    (delivers : ∀ made ∈ requests, Delivers document made.renderer)
    (outside : OutsideScratch place)
    (images
      : ∀ made ∈ requests,
          OutsideScratch (made.png.place bench.files.here)
          ∧ place ≠ made.png.place bench.files.here)
    : (run requests bench).files.here = bench.files.here
      ∧ Holds document (run requests bench).files place
          (copiedLast place requests bench last) := by
  induction requests generalizing bench last with
  | nil => exact ⟨rfl, holds⟩
  | cons request requests ih =>
      obtain ⟨image, apart⟩ := images request (by simp)
      obtain ⟨here, next⟩ := holds.perform (delivers request (by simp)) outside image apart
      have later := ih next (fun made member => delivers made (by simp [member]))
        (fun made member => by
          rw [here]
          exact images made (by simp [member]))
      exact ⟨later.1.trans here, later.2⟩

/-- What the last of some requests does to what was copied last. -/
theorem copiedLast_append (place : Location) (requests : List Request) (request : Request)
    (bench : Bench) (last : Option String)
    : copiedLast place (requests ++ [request]) bench last
      = if request.copiesTo place (Latex.run requests bench) then some request.source
        else copiedLast place requests bench last := by
  induction requests generalizing bench last with
  | nil => rfl
  | cons first requests ih => exact ih (first.perform bench).2 _

/-- The path of a document leads somewhere when a request for it has succeeded. -/
theorem exists_locate_of_perform {after : Bench} {outcome : Outcome} {path : Path}
    (delivers : Delivers document request.renderer)
    (image : OutsideScratch (request.png.place bench.files.here))
    (clear
      : ∀ place ∈ path.place bench.files.here :: path.trail bench.files.here, OutsideScratch place)
    (asked : request.pdf = some path)
    (performed : request.perform bench = (.ok outcome, after))
    : ∃ goal, after.files.locate path = .ok goal := by
  rcases Request.perform_eq_ok performed with
    ⟨current, rfl⟩ | ⟨middle, files, drawn, stored, rfl⟩
  · simp only [isCurrent, asked, Option.map_some, Option.getD_some, Bool.and_eq_true] at current
    obtain ⟨_, present⟩ := (FileSystem.isPresent_iff _ path).mp current.1
    obtain ⟨goal, led, _⟩ := (FileSystem.at?_eq_ok_iff _ path _).mp present
    exact ⟨goal, led⟩
  · rw [Request.render, asked] at drawn
    obtain ⟨scratch, copied, proper, here, read, same⟩ :=
      delivers.exists_drop_of_render image (clear _ List.mem_cons_self) drawn
    obtain ⟨goal, _, led, _⟩ := (FileSystem.read_eq_ok_iff copied path _).mp read
    obtain ⟨_, filled⟩ := filled_of_storeHash stored
    refine ⟨goal, (filled.locate_iff path goal).mpr ?_⟩
    -- The path does not lead through the scratch directory, so it leads on when that is dropped.
    have dropped := FileSystem.frame_drop copied scratch
    rw [same]
    refine FileSystem.locate_of_directories dropped.here (fun passed on directory => ?_) led
    rw [here] at on
    exact dropped.entry?_eq_some (clear passed (List.mem_cons_of_mem _ on) scratch proper) directory

end

-----------------------------------------------------------------------------------------
-- Letters
-----------------------------------------------------------------------------------------

theorem delivers_sketcher : Delivers sketchDocument sketcher :=
  ⟨typesets_sketcher, faithful_sketcher.spares, confined_sketcher⟩

/-- There are no scratch directories at the root. -/
theorem outsideScratch_of_length {place : Location} (short : place.length < 2)
    : OutsideScratch place := by
  rintro _ ⟨n, rfl⟩ inside
  have length := inside.length_le
  simp only [scratchRoot, List.length_append, List.length_cons, List.length_nil] at length
  omega

/-- Where the document of a letter goes. -/
def letterPdf : Path := ⟨"a.pdf"⟩

theorem letterPdf_leads : letterPdf.place [] = ["a.pdf"] ∧ letterPdf.trail [] = [[]] := by
  decide +kernel

theorem letter_png_place (body : String) (pdf : Option Path)
    : (letter body pdf).png.place [] = ["a.png"] := by
  change Path.place [] ⟨"a.png"⟩ = ["a.png"]
  decide +kernel

/-- A letter and its document go to places of their own. -/
theorem letter_images {requests : List Request}
    (letters : ∀ made ∈ requests, ∃ body pdf, made = letter body pdf)
    : ∀ made ∈ requests,
        OutsideScratch (made.png.place emptyDesk.files.here)
        ∧ letterPdf.place emptyDesk.files.here ≠ made.png.place emptyDesk.files.here := by
  intro made member
  obtain ⟨body, pdf, rfl⟩ := letters made member
  rw [show emptyDesk.files.here = [] from rfl, letter_png_place, letterPdf_leads.1]
  exact ⟨outsideScratch_of_length (by decide), by decide⟩

/-- The path of the document of a letter is clear of scratch directories. -/
theorem letterPdf_clear
    : ∀ place ∈ letterPdf.place emptyDesk.files.here :: letterPdf.trail emptyDesk.files.here,
        OutsideScratch place := by
  rw [show emptyDesk.files.here = [] from rfl, letterPdf_leads.1, letterPdf_leads.2]
  intro place member
  refine outsideScratch_of_length ?_
  simp only [List.mem_cons, List.not_mem_nil, or_false] at member
  rcases member with rfl | rfl <;> decide

/-- What is read at the path of the document after letters: the one that was copied last. -/
theorem read_letters {requests : List Request} {source : String}
    (letters : ∀ made ∈ requests, ∃ body pdf, made = letter body pdf)
    (last : copiedLast ["a.pdf"] requests emptyDesk none = some source)
    : (run requests emptyDesk).files.read letterPdf = .ok (sketchDocument source) := by
  have start : Holds sketchDocument emptyDesk.files (letterPdf.place emptyDesk.files.here) none :=
    holds_none (entry?_emptyDesk _)
  obtain ⟨here, holds⟩ := start.run
    (fun made member => by
      obtain ⟨_, _, rfl⟩ := letters made member
      exact delivers_sketcher)
    (letterPdf_clear _ List.mem_cons_self) (letter_images letters)
  rw [show emptyDesk.files.here = [] from rfl, letterPdf_leads.1, last] at holds
  have home : (run requests emptyDesk).files.here = [] := here
  have led : (run requests emptyDesk).files.locate letterPdf = .ok ["a.pdf"] := by
    rw [FileSystem.locate_eq_ok_iff, home, letterPdf_leads.1, letterPdf_leads.2]
    simp [letterPdf, FileSystem.entry?, Path.isEmpty]
  rw [← letterPdf_leads.1, ← home] at holds
  exact (holds.read_iff led _).mpr rfl

/-- A letter is kept after one of the same body if a document is there. -/
theorem perform_letter_again {body : String} {pdf : Option Path} {bench after : Bench}
    {outcome : Outcome} {octets : List UInt8}
    (performed : (letter body pdf).perform bench = (.ok outcome, after))
    (read : after.files.read letterPdf = .ok octets)
    : (letter body (some letterPdf)).perform after = (.ok .cached, after) := by
  have carried := storedHash_of_perform faithful_sketcher
    (fun _ => survives_sketchImage (letter body pdf).source) performed
  have sameSource : (letter body pdf).source = (letter body (some letterPdf)).source := rfl
  have samePath : (letter body pdf).png = (letter body (some letterPdf)).png := rfl
  rw [sameSource, samePath] at carried
  obtain ⟨_, present⟩ := (FileSystem.read_eq_ok_iff_at? _ _ _).mp read
  refine Request.perform_of_storedHash (fun path asked => ?_) carried
  obtain rfl : letterPdf = path := Option.some.inj asked
  exact (FileSystem.isPresent_iff _ letterPdf).mpr ⟨_, present⟩

/-- A first letter with its document. -/
def printedLetter : Request := letter "A" (some letterPdf)

/-- A second letter without its document. -/
def plainLetter : Request := letter "B" none

/-- The first letter is rendered. -/
theorem perform_printedLetter
    : printedLetter.perform emptyDesk = (.ok .rendered, printedLetter.signed emptyDesk) := by
  have blank : storedHash emptyDesk.files printedLetter.png = none := by
    decide +kernel
  exact @perform_of_render printedLetter emptyDesk rfl (by decide +kernel)
    (by rw [isCurrent, blank]; exact Bool.and_false _) (by decide +kernel) (by decide +kernel)

/-- The second letter can be made after the first one. -/
theorem exists_perform_plainLetter
    : ∃ outcome after,
        plainLetter.perform (printedLetter.signed emptyDesk) = (.ok outcome, after) := by
  cases stale : isCurrent (printedLetter.signed emptyDesk).files plainLetter.png plainLetter.pdf
    (plainLetter.compiler.hash plainLetter.body) with
  | true =>
      refine ⟨.cached, printedLetter.signed emptyDesk, ?_⟩
      rw [Request.perform_eq, Request.performWith, if_pos stale]
  | false =>
      exact ⟨_, _, @perform_of_render plainLetter (printedLetter.signed emptyDesk) rfl
        (by decide +kernel) stale (by decide +kernel) (by decide +kernel)⟩

theorem run_printedLetter : run [printedLetter] emptyDesk = printedLetter.signed emptyDesk := by
  rw [run, List.foldl_cons, List.foldl_nil, perform_printedLetter]

/-- The document of the first letter is copied. -/
theorem copiedLast_printedLetter
    : copiedLast ["a.pdf"] [printedLetter] emptyDesk none = some printedLetter.source := by
  have copies : printedLetter.copiesTo ["a.pdf"] emptyDesk = true := by
    rw [Request.copiesTo, perform_printedLetter, show emptyDesk.files.here = [] from rfl,
      show printedLetter.pdf = some letterPdf from rfl, Option.map_some, letterPdf_leads.1]
    rfl
  rw [copiedLast, if_pos copies, copiedLast]

theorem copiedLast_plainLetter
    : copiedLast ["a.pdf"] ([printedLetter] ++ [plainLetter]) emptyDesk none
      = some printedLetter.source := by
  rw [copiedLast_append, if_neg, copiedLast_printedLetter]
  simp [Request.copiesTo, plainLetter, letter]

-----------------------------------------------------------------------------------------
-- The document that is left
-----------------------------------------------------------------------------------------

/-- A request with a document that succeeds leaves the document of its source at the path, exactly
if the document that was copied there last, by this request or an earlier one, is the same.
-/
theorem read_document_iff {document : String → List UInt8} {requests : List Request}
    {request : Request} {bench after : Bench} {outcome : Outcome} {path : Path}
    (delivers : ∀ made ∈ requests ++ [request], Delivers document made.renderer)
    (images
      : ∀ made ∈ requests ++ [request],
          OutsideScratch (made.png.place bench.files.here)
          ∧ path.place bench.files.here ≠ made.png.place bench.files.here)
    (clear
      : ∀ place ∈ path.place bench.files.here :: path.trail bench.files.here, OutsideScratch place)
    (empty
      : ∀ bytes executable,
          bench.files.entry? (path.place bench.files.here) ≠ some (.file bytes executable))
    (asked : request.pdf = some path)
    (performed : request.perform (run requests bench) = (.ok outcome, after))
    : after.files.read path = .ok (document request.source)
      ↔ (copiedLast (path.place bench.files.here) (requests ++ [request]) bench none).map document
        = some (document request.source) := by
  have start : Holds document bench.files (path.place bench.files.here) none := holds_none empty
  have outside : OutsideScratch (path.place bench.files.here) := clear _ List.mem_cons_self
  have member : request ∈ requests ++ [request] := by simp
  obtain ⟨here, before⟩ := start.run
    (fun made member => delivers made (List.mem_append_left _ member)) outside
    (fun made member => images made (List.mem_append_left _ member))
  have image := images request member
  rw [← here] at image clear
  obtain ⟨still, last⟩ := before.perform (delivers request member) outside image.1
    (by rw [here] at image ⊢; exact image.2)
  obtain ⟨goal, led⟩ :=
    exists_locate_of_perform (delivers request member) image.1 clear asked performed
  rw [copiedLast_append]
  rw [performed] at last still
  rw [← here, ← still] at last ⊢
  exact last.read_iff led _

/-- A letter that is asked for again is kept, and so is its document. -/
theorem read_printedLetter
    : ∃ after,
        printedLetter.perform (run [printedLetter] emptyDesk) = (.ok .cached, after)
        ∧ after.files.read letterPdf = .ok (sketchDocument printedLetter.source) := by
  have letters (made : Request) (member : made ∈ [printedLetter] ++ [printedLetter])
      : made = printedLetter := by
    simpa using member
  have read := read_letters
    (fun made member => ⟨_, _, letters made (List.mem_append_left _ member)⟩)
    copiedLast_printedLetter
  rw [run_printedLetter] at read
  have again : printedLetter.perform (run [printedLetter] emptyDesk)
      = (.ok .cached, run [printedLetter] emptyDesk) := by
    rw [run_printedLetter]
    exact perform_letter_again perform_printedLetter read
  have kept : printedLetter.copiesTo ["a.pdf"] (run [printedLetter] emptyDesk) = false := by
    rw [Request.copiesTo, again]
    rfl
  have delivers (made : Request) (member : made ∈ [printedLetter] ++ [printedLetter])
      : Delivers sketchDocument made.renderer := by
    rw [letters made member]
    exact delivers_sketcher
  have images := letter_images fun made member => ⟨_, _, letters made member⟩
  refine ⟨_, again, (read_document_iff delivers images letterPdf_clear (entry?_emptyDesk _) rfl
    again).mpr ?_⟩
  rw [show emptyDesk.files.here = [] from rfl, letterPdf_leads.1, copiedLast_append,
    if_neg (Bool.eq_false_iff.mp kept), copiedLast_printedLetter]
  rfl

theorem hexDigest_letters
    : Sha256.hexDigest printedLetter.source ≠ Sha256.hexDigest plainLetter.source := by
  decide +kernel

/-- A request with a document may leave that of another source, for all that is known of renderers
and hashes.
-/
theorem not_forall_read_document
    : ¬ ∀ (document : String → List UInt8) (image : String → Image.Png.Picture)
        (requests : List Request) (request : Request) (bench after : Bench) (outcome : Outcome)
        (path : Path),
          (∀ place bytes executable,
              bench.files.entry? place = some (.file bytes executable) → hashIn? bytes = none)
          → (∀ made ∈ requests ++ [request], Faithful document image made.renderer)
          → (∀ made ∈ requests ++ [request], ∀ picture,
              SameImage (image made.source) picture → SurvivesStoring picture)
          → (∀ one ∈ requests ++ [request], ∀ other ∈ requests ++ [request],
              Sha256.hexDigest one.source = Sha256.hexDigest other.source
              → one.source = other.source)
          → (∀ made ∈ requests ++ [request], Delivers document made.renderer)
          → (∀ made ∈ requests ++ [request],
              OutsideScratch (made.png.place bench.files.here)
              ∧ path.place bench.files.here ≠ made.png.place bench.files.here)
          → (∀ place ∈ path.place bench.files.here :: path.trail bench.files.here,
              OutsideScratch place)
          → (∀ bytes executable,
              bench.files.entry? (path.place bench.files.here) ≠ some (.file bytes executable))
          → request.pdf = some path
          → request.perform (run requests bench) = (.ok outcome, after)
          → after.files.read path = .ok (document request.source) := by
  intro fresh
  obtain ⟨outcome, after, performed⟩ := exists_perform_plainLetter
  have left : run ([printedLetter] ++ [plainLetter]) emptyDesk = after := by
    rw [run_append, run_printedLetter, run, List.foldl_cons, List.foldl_nil, performed]
  have read := read_letters
    (fun made member => by
      have either : made = printedLetter ∨ made = plainLetter := by
        simpa using member
      rcases either with rfl | rfl <;> exact ⟨_, _, rfl⟩)
    copiedLast_plainLetter
  have again := perform_letter_again performed (by rw [← left]; exact read)
  have three (made : Request)
      (member : made ∈ [printedLetter] ++ [plainLetter] ++ [letter "B" (some letterPdf)])
      : made = printedLetter ∨ made = plainLetter ∨ made = letter "B" (some letterPdf) := by
    simpa using member
  have sameSource : (letter "B" (some letterPdf)).source = plainLetter.source := rfl
  have sources (made : Request)
      (member : made ∈ [printedLetter] ++ [plainLetter] ++ [letter "B" (some letterPdf)])
      : made.source = printedLetter.source ∨ made.source = plainLetter.source := by
    rcases three made member with rfl | rfl | rfl
    · exact .inl rfl
    · exact .inr rfl
    · exact .inr sameSource
  have wrong := fresh sketchDocument sketchImage ([printedLetter] ++ [plainLetter])
    (letter "B" (some letterPdf)) emptyDesk after .cached letterPdf
    (fun place bytes executable held => absurd held (entry?_emptyDesk place bytes executable))
    (fun made member => by
      rcases three made member with rfl | rfl | rfl <;> exact faithful_sketcher)
    (fun made _ _ => survives_sketchImage made.source)
    (fun one first other second same => by
      rcases sources one first with one | one <;> rcases sources other second with other | other
      all_goals rw [one, other] at same ⊢
      · exact absurd same hexDigest_letters
      · exact absurd same.symm hexDigest_letters)
    (fun made member => by
      rcases three made member with rfl | rfl | rfl <;> exact delivers_sketcher)
    (letter_images fun made member => by
      rcases three made member with rfl | rfl | rfl <;> exact ⟨_, _, rfl⟩)
    letterPdf_clear (entry?_emptyDesk _) rfl (by rw [left]; exact again)
  rw [left] at read
  rw [sameSource] at wrong
  have same := sketchDocument_inj.mp (Except.ok.inj (read.symm.trans wrong))
  exact hexDigest_letters (congrArg Sha256.hexDigest same)

end Publication.Latex
