import Publication.Latex.Rehearsal
import Publication.Proofs.Latex.Confinement
import Publication.Proofs.Latex.Faithfulness

/-! A renderer without tools: a document is its source behind a mark, and an image is one gray pixel
whose tone tells documents apart. It does all that is assumed of renderers.
-/

namespace Publication.Latex

open Publication.FileSystem (Frame)
open Publication.Image

/-- What a document begins with. -/
def pdfMark : List UInt8 := Text.utf8 "%PDF-1.4\n"

/-- A source as a document. -/
def sketchDocument (source : String) : List UInt8 := pdfMark ++ Text.utf8 source

/-- Documents of different sources are different. -/
theorem sketchDocument_inj {source other : String}
    : sketchDocument source = sketchDocument other ↔ source = other := by
  refine ⟨fun same => ?_, fun same => by rw [same]⟩
  have octets : source.toUTF8.data.toList = other.toUTF8.data.toList :=
    List.append_cancel_left same
  exact String.toByteArray_inj.mp (ByteArray.ext (Array.toList_inj.mp octets))

/-- One gray pixel. -/
def dot (tone : UInt8) : Png.Picture where
  head := { header := { width := 1, height := 1, color := .grayscale, depth := 8 } }
  pixels := [tone]

/-- The tone of octets. -/
def toneOf (bytes : List UInt8) : UInt8 := bytes.foldl (· + ·) 0

/-- The image of a source. -/
def sketchImage (source : String) : Png.Picture := dot (toneOf (sketchDocument source))

/-- The file of a pixel. -/
def dotBytes (tone : UInt8) : List UInt8 := (Png.write? (dot tone)).getD []

/-- The renderer that makes documents and images of this kind. -/
def sketcher : Renderer where
  typeset := fun _ job fs =>
    match fs.read job.source with
    | .ok bytes => Script.put (job.outputDir.child "file.pdf") (pdfMark ++ bytes) fs
    | .error e => (.error (.file e), fs)
  rasterize := fun _ job fs =>
    match fs.read job.pdf with
    | .ok bytes => Script.put job.png (dotBytes (toneOf bytes)) fs
    | .error e => (.error (.file e), fs)

-----------------------------------------------------------------------------------------
-- Pixels
-----------------------------------------------------------------------------------------

theorem sound_dot (tone : UInt8) : (dot tone).head.Sound where
  header := ⟨by simp [dot], by simp [dot], by simp [dot, Png.Color.depths]⟩
  palette := by simp [dot]
  transparency := by simp [dot]
  texts := by simp [dot]

theorem write?_dot (tone : UInt8) : Png.write? (dot tone) = some (dotBytes tone) := by
  obtain ⟨bytes, written⟩ := Png.exists_write? (sound_dot tone) (by simp [dot])
  rw [dotBytes, written, Option.getD_some]

/-- A pixel is read again. -/
theorem read?_dotBytes (tone : UInt8) : Png.read? (dotBytes tone) = some (dot tone) := by
  have full : (dot tone).pixels.length = (dot tone).head.header.height
      * (dot tone).head.header.rowLength (dot tone).head.header.width := by
    simp only [dot, List.length_singleton]
    decide
  rw [Png.read?_write? (sound_dot tone) full (write?_dot tone)]
  rfl

theorem hashIn?_dotBytes (tone : UInt8) : hashIn? (dotBytes tone) = none := by
  rw [hashIn?, Png.readHead?_write? (sound_dot tone) (write?_dot tone)]
  rfl

-----------------------------------------------------------------------------------------
-- What the renderer does
-----------------------------------------------------------------------------------------

/-- Octets are put into a file, or nothing happens. -/
theorem put_cases (path : Path) (bytes : List UInt8) (fs : FileSystem)
    : (∃ after, Script.put path bytes fs = (.ok (), after) ∧ fs.Filled path bytes after)
      ∨ ∃ error, Script.put path bytes fs = (.error error, fs) := by
  simp only [Script.put]
  cases written : fs.write path bytes with
  | ok after => exact .inl ⟨after, rfl, FileSystem.filled_of_write written⟩
  | error e => exact .inr ⟨_, rfl⟩

/-- A source that is found becomes a document, or nothing happens. -/
theorem sketcher_typeset_cases (calls : List Call) (job : TypesetJob) (fs : FileSystem)
    : (∃ bytes after,
          fs.read job.source = .ok bytes
          ∧ sketcher.typeset calls job fs = (.ok (), after)
          ∧ fs.Filled (job.outputDir.child "file.pdf") (pdfMark ++ bytes) after)
      ∨ ∃ error, sketcher.typeset calls job fs = (.error error, fs) := by
  simp only [sketcher]
  cases read : fs.read job.source with
  | error e => exact .inr ⟨_, rfl⟩
  | ok bytes =>
      rcases put_cases (job.outputDir.child "file.pdf") (pdfMark ++ bytes) fs with
        ⟨after, put, filled⟩ | ⟨error, failed⟩
      · exact .inl ⟨bytes, after, rfl, put, filled⟩
      · exact .inr ⟨error, failed⟩

/-- A document that is found becomes an image, or nothing happens. -/
theorem sketcher_rasterize_cases (calls : List Call) (job : RasterJob) (fs : FileSystem)
    : (∃ bytes after,
          fs.read job.pdf = .ok bytes
          ∧ sketcher.rasterize calls job fs = (.ok (), after)
          ∧ fs.Filled job.png (dotBytes (toneOf bytes)) after)
      ∨ ∃ error, sketcher.rasterize calls job fs = (.error error, fs) := by
  simp only [sketcher]
  cases read : fs.read job.pdf with
  | error e => exact .inr ⟨_, rfl⟩
  | ok bytes =>
      rcases put_cases job.png (dotBytes (toneOf bytes)) fs with
        ⟨after, put, filled⟩ | ⟨error, failed⟩
      · exact .inl ⟨bytes, after, rfl, put, filled⟩
      · exact .inr ⟨error, failed⟩

/-- Documents are made of sources, which stay. -/
theorem typesets_sketcher : Typesets sketchDocument sketcher.typeset where
  document := by
    intro calls scratch workingDir fs after source present typeset
    rcases sketcher_typeset_cases calls ⟨scratch.child "file.tex", scratch, workingDir⟩ fs with
      ⟨bytes, made, read, ended, filled⟩ | ⟨error, ended⟩
    · obtain rfl : bytes = Text.utf8 source := Except.ok.inj (read.symm.trans present)
      obtain ⟨_, rfl⟩ := Prod.mk.inj (ended.symm.trans typeset)
      exact filled.read
    · cases ended.symm.trans typeset
  source := by
    intro calls scratch workingDir fs after source present typeset
    rcases sketcher_typeset_cases calls ⟨scratch.child "file.tex", scratch, workingDir⟩ fs with
      ⟨bytes, made, read, ended, filled⟩ | ⟨error, ended⟩
    · obtain ⟨_, rfl⟩ := Prod.mk.inj (ended.symm.trans typeset)
      refine (filled.read_iff ?_ _).mpr present
      rw [place_child _ (by decide), place_child _ (by decide)]
      simp
    · cases ended.symm.trans typeset

/-- Nothing but results is written. -/
theorem confined_sketcher : Confined sketcher where
  typeset := by
    intro calls job fs
    rcases sketcher_typeset_cases calls job fs with ⟨_, made, _, ended, filled⟩ | ⟨error, ended⟩
    · rw [ended]
      refine filled.frame.mono fun place same => ?_
      rw [show place = _ from same, place_child _ (by decide)]
      exact List.prefix_append _ _
    · rw [ended]
      exact .refl _ _
  rasterize := by
    intro calls job fs
    rcases sketcher_rasterize_cases calls job fs with ⟨_, made, _, ended, filled⟩ | ⟨error, ended⟩
    · rw [ended]
      exact filled.frame.mono fun place same => .inr same
    · rw [ended]
      exact .refl _ _

/-- Documents and images are those of the sources, and no hashes are brought. -/
theorem faithful_sketcher : Faithful sketchDocument sketchImage sketcher where
  typesets := typesets_sketcher
  opaqueDocument := fun _ => rfl
  typesetKeeps := by
    intro calls job fs
    rcases sketcher_typeset_cases calls job fs with ⟨bytes, _, _, ended, filled⟩ | ⟨error, ended⟩
    · rw [ended]
      exact noNewHash_of_filled filled (.inl rfl)
    · rw [ended]
      exact chains_noNewHash.refl fs
  rasterizeKeeps := by
    intro calls job fs
    rcases sketcher_rasterize_cases calls job fs with ⟨_, _, _, ended, filled⟩ | ⟨error, ended⟩
    · rw [ended]
      exact noNewHash_of_filled filled (.inl (hashIn?_dotBytes _))
    · rw [ended]
      exact chains_noNewHash.refl fs
  draws := by
    intro calls job fs after source present drawn
    rcases sketcher_rasterize_cases calls job fs with
      ⟨bytes, made, read, ended, filled⟩ | ⟨error, ended⟩
    · obtain rfl : bytes = sketchDocument source := Except.ok.inj (read.symm.trans present)
      obtain ⟨_, rfl⟩ := Prod.mk.inj (ended.symm.trans drawn)
      exact ⟨_, _, filled.read, read?_dotBytes _, .refl _⟩
    · cases ended.symm.trans drawn
  spares := by
    intro calls job fs after source present drawn apart
    rcases sketcher_rasterize_cases calls job fs with
      ⟨bytes, made, read, ended, filled⟩ | ⟨error, ended⟩
    · obtain ⟨_, rfl⟩ := Prod.mk.inj (ended.symm.trans drawn)
      rw [filled.here] at apart
      exact (filled.read_iff apart _).mpr present
    · cases ended.symm.trans drawn

/-- A pixel survives the storing of a hash, however it is told. -/
theorem survives_dot (tone : UInt8) {picture : Png.Picture} (same : SameImage (dot tone) picture)
    : SurvivesStoring picture := by
  refine survivesStoring_of_not_cutsSamples fun cut => ?_
  have present := cut.1
  rw [same.transparency] at present
  cases present

theorem survives_sketchImage (source : String) {picture : Png.Picture}
    (same : SameImage (sketchImage source) picture)
    : SurvivesStoring picture :=
  survives_dot _ same

-----------------------------------------------------------------------------------------
-- Requests that succeed
-----------------------------------------------------------------------------------------

/-- A desk with nothing on it but room for scratch directories. -/
def emptyDesk : Bench := ⟨⟨[], [(["tmp"], .directory)]⟩, []⟩

/-- There are no files on an empty desk. -/
theorem entry?_emptyDesk (place : Location) (bytes : List UInt8) (executable : Bool)
    : emptyDesk.files.entry? place ≠ some (.file bytes executable) := by
  intro held
  simp only [emptyDesk, FileSystem.entry?, FileSystem.find?] at held
  split at held
  · cases held
  · split at held <;> cases held

/-- A request for the image of a letter, with a document or without. -/
def letter (body : String) (pdf : Option Path) : Request where
  compiler := .start ⟨"."⟩ ""
  renderer := sketcher
  body := body
  png := ⟨"a.png"⟩
  pdf := pdf

/-- The picture in a file, or a black pixel where there is none. -/
def pictureAt (fs : FileSystem) (png : Path) : Png.Picture :=
  ((fs.read png).toOption.bind Png.read?).getD (dot 0)

/-- What a request leaves that has rendered a picture: the hash is stored in it. -/
def Request.signed (request : Request) (bench : Bench) : Bench :=
  let drawn := (request.render bench).2
  let picture := pictureAt drawn.files request.png
  let signed := Png.write? (withHash (request.compiler.hash request.body) picture)
  ⟨drawn.files.put (request.png.place drawn.files.here) (.file (signed.getD []) false), drawn.calls⟩

/-- A request of the renderer succeeds if its image is not current and rendering leaves a picture.
-/
theorem perform_of_render {request : Request} {bench : Bench}
    (sketches : request.renderer = sketcher)
    (plain : FileSystem.endsInSlash request.png = false)
    (stale
      : isCurrent bench.files request.png request.pdf (request.compiler.hash request.body) = false)
    (works : (request.render bench).1 = .ok ())
    (shown
      : (((request.render bench).2.files.read request.png).toOption.bind Png.read?).isSome = true)
    : request.perform bench = (.ok .rendered, request.signed bench) := by
  obtain ⟨picture, decodes⟩ := Option.isSome_iff_exists.mp shown
  obtain ⟨bytes, found, decoded⟩ := Option.bind_eq_some_iff.mp decodes
  have read : (request.render bench).2.files.read request.png = .ok bytes := by
    cases file : (request.render bench).2.files.read request.png with
    | ok octets =>
        rw [file] at found
        cases found
        rfl
    | error e =>
        rw [file] at found
        cases found
  have drawn : request.render bench = (.ok (), (request.render bench).2) := Prod.ext works rfl
  have faithful : Faithful sketchDocument sketchImage request.renderer := by
    rw [sketches]
    exact faithful_sketcher
  have same := faithful.sameImage_of_render drawn read decoded
  have stored := storeHash_digest request.source read decoded
    (by simp [same.color, sketchImage, dot]) plain
  have at' : pictureAt (request.render bench).2.files request.png = picture := by
    rw [pictureAt, decodes, Option.getD_some]
  rw [Request.perform_eq, Request.performWith, stale, if_neg Bool.false_ne_true, drawn]
  simp only
  rw [show storeHash _ _ (request.compiler.hash request.body) = _ from stored]
  simp only [Request.signed, at']
  rfl

end Publication.Latex
