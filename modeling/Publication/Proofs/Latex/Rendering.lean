import Publication.Latex.Compiler
import Publication.Proofs.FileSystem.Effects

/-! Rendering step by step. What each step keeps is kept by the whole, however it ends; and if it
ends well, the tool that draws the image has found the document of the source.
-/

namespace Publication.Latex

-----------------------------------------------------------------------------------------
-- Work and what it keeps
-----------------------------------------------------------------------------------------

theorem bind_of_ok {ε σ α β : Type} {first : ExceptT ε (StateM σ) α}
    {later : α → ExceptT ε (StateM σ) β} {start middle : σ} {a : α}
    (done : first start = (.ok a, middle))
    : (first >>= later) start = later a middle := by
  simp only [bind, ExceptT.bind, ExceptT.mk, StateT.bind, done, ExceptT.bindCont]

/-- What comes of a sequence if its first step fails. -/
theorem bind_of_error {ε σ α β : Type} {first : ExceptT ε (StateM σ) α}
    {later : α → ExceptT ε (StateM σ) β} {start middle : σ} {e : ε}
    (failed : first start = (.error e, middle))
    : (first >>= later) start = (.error e, middle) := by
  simp only [bind, ExceptT.bind, ExceptT.mk, StateT.bind, failed, ExceptT.bindCont]
  rfl

/-- A sequence succeeds if its steps do, one after the other. -/
theorem bind_eq_ok_iff {ε σ α β : Type} {first : ExceptT ε (StateM σ) α}
    {later : α → ExceptT ε (StateM σ) β} {start last : σ} {b : β}
    : (first >>= later) start = (.ok b, last)
      ↔ ∃ a middle, first start = (.ok a, middle) ∧ later a middle = (.ok b, last) := by
  constructor
  · intro whole
    rcases done : first start with ⟨e | a, middle⟩
    · rw [bind_of_error done] at whole
      cases whole
    · rw [bind_of_ok done] at whole
      exact ⟨a, middle, rfl, whole⟩
  · rintro ⟨a, middle, done, rest⟩
    rw [bind_of_ok done, rest]

/-- A sequence fails if its first step does, or if that succeeds and a later one fails. -/
theorem bind_eq_error_iff {ε σ α β : Type} {first : ExceptT ε (StateM σ) α}
    {later : α → ExceptT ε (StateM σ) β} {start last : σ} {e : ε}
    : (first >>= later) start = (.error e, last)
      ↔ first start = (.error e, last)
        ∨ ∃ a middle, first start = (.ok a, middle) ∧ later a middle = (.error e, last) := by
  rcases done : first start with ⟨error | a, middle⟩
  · rw [bind_of_error done]
    constructor
    · intro same
      cases same
      exact .inl rfl
    · rintro (same | ⟨_, _, same, _⟩)
      · cases same
        rfl
      · cases same
  · rw [bind_of_ok done]
    constructor
    · exact fun failed => .inr ⟨a, middle, rfl, failed⟩
    · rintro (same | ⟨_, _, same, failed⟩)
      · cases same
      · cases same
        exact failed

/-- What is made of a result does not fail by itself. -/
theorem bind_pure_eq_error_iff {ε σ α β : Type} {first : ExceptT ε (StateM σ) α} {make : α → β}
    {start last : σ} {e : ε}
    : (first >>= fun a => pure (make a)) start = (.error e, last)
      ↔ first start = (.error e, last) := by
  rw [bind_eq_error_iff]
  refine or_iff_left ?_
  rintro ⟨_, _, _, ended⟩
  cases ended

/-- What takes no step succeeds where it starts. -/
theorem pure_eq_ok_iff {ε σ α : Type} {start last : σ} {a b : α}
    : (pure a : ExceptT ε (StateM σ) α) start = (.ok b, last) ↔ a = b ∧ start = last := by
  constructor
  · intro same
    cases same
    exact ⟨rfl, rfl⟩
  · rintro ⟨rfl, rfl⟩
    rfl

/-- Work that gives a result succeeds with it. -/
theorem eq_ok_of_toOption {ε σ α : Type} {run : Except ε α × σ} {a : α}
    (given : run.1.toOption = some a)
    : run = (.ok a, run.2) := by
  obtain ⟨result, last⟩ := run
  cases result with
  | error => cases given
  | ok => cases given; rfl

/-- Work whose errors are seen as others succeeds as it did. -/
theorem adapt_eq_ok_iff {ε ε' σ α : Type} (convert : ε → ε') {work : ExceptT ε (StateM σ) α}
    {start last : σ} {a : α}
    : (ExceptT.adapt convert work : ExceptT ε' (StateM σ) α) start = (.ok a, last)
      ↔ work start = (.ok a, last) := by
  have adapted : (ExceptT.adapt convert work : ExceptT ε' (StateM σ) α) start
      = ((work start).1.mapError convert, (work start).2) := rfl
  rw [adapted]
  rcases work start with ⟨error | b, middle⟩
  · constructor <;> intro same <;> cases same
  · constructor <;> intro same <;> cases same <;> rfl

/-- An error is told in other words. -/
theorem adapt_of_error {ε ε' σ α : Type} (convert : ε → ε') {work : ExceptT ε (StateM σ) α}
    {start last : σ} {e : ε} (failed : work start = (.error e, last))
    : (ExceptT.adapt convert work : ExceptT ε' (StateM σ) α) start
      = (.error (convert e), last) := by
  have adapted : (ExceptT.adapt convert work : ExceptT ε' (StateM σ) α) start
      = ((work start).1.mapError convert, (work start).2) := rfl
  rw [adapted, failed]
  rfl

/-- A relation between trees that holds over steps in a row, and over none. -/
structure Chains (relation : FileSystem → FileSystem → Prop) : Prop where
  refl : ∀ fs, relation fs fs
  trans
    : ∀ {first second third},
        relation first second → relation second third → relation first third

theorem chains_frame (region : Location → Prop) : Chains (FileSystem.Frame region) :=
  ⟨.refl region, .trans⟩

/-- The files before and after work are related, however it ends. -/
def Keeps {ε α : Type} (relation : FileSystem → FileSystem → Prop) (work : Work ε α) : Prop :=
  ∀ bench, relation bench.files (work bench).2.files

section

variable {ε ε' α β : Type} {relation : FileSystem → FileSystem → Prop}

theorem Keeps.pure (chains : Chains relation) (a : α) : Keeps relation (pure a : Work ε α) :=
  fun bench => chains.refl bench.files

/-- A sequence keeps what its steps keep. -/
theorem Keeps.bind (chains : Chains relation) {first : Work ε α} {later : α → Work ε β}
    (earlier : Keeps relation first) (next : ∀ a, Keeps relation (later a))
    : Keeps relation (first >>= later) := by
  intro bench
  have head := earlier bench
  rcases done : first bench with ⟨e | a, middle⟩
  · rw [done] at head
    rw [bind_of_error done]
    exact head
  · rw [done] at head
    rw [bind_of_ok done]
    exact chains.trans head (next a middle)

/-- An operation keeps what it keeps when it succeeds. -/
theorem Keeps.perform (chains : Chains relation) (convert : FileError → ε)
    {op : FileSystem → Except FileError FileSystem}
    (kept : ∀ fs after, op fs = .ok after → relation fs after)
    : Keeps relation (onFiles convert (FileSystem.perform op)) := by
  intro bench
  simp only [onFiles, FileSystem.perform]
  cases done : op bench.files with
  | ok after => exact kept bench.files after done
  | error e => exact chains.refl bench.files

/-- The making of directories keeps what additions keep. -/
theorem Keeps.makeDirectories (convert : FileError → ε) (path : Path)
    (kept : ∀ fs after, FileSystem.Frame FileSystem.nowhere fs after → relation fs after)
    : Keeps relation (onFiles convert (FileSystem.makeDirectories path)) := by
  intro bench
  have frame := FileSystem.frame_makeDirectories path bench.files
  simp only [onFiles]
  split <;> rename_i made <;> rw [made] at frame <;> exact kept _ _ frame

theorem Keeps.call {Job : Type} {tool : Tool Job} {job : Job} (note : Call)
    (kept : ∀ calls fs, relation fs (tool calls job fs).2)
    : Keeps relation (call tool job note) :=
  fun bench => kept bench.calls bench.files

/-- Typesetting keeps what each pass keeps, by induction on their number. -/
theorem Keeps.typesetAll (chains : Chains relation) {renderer : Renderer} {job : TypesetJob}
    (kept : ∀ calls fs, relation fs (renderer.typeset calls job fs).2) (source : String)
    (passes : Nat)
    : Keeps relation (typesetAll renderer job source passes) := by
  induction passes with
  | zero => exact .pure chains ()
  | succ passes ih => exact .bind chains (.call _ kept) fun _ => ih

end

/-- An operation that succeeded. -/
theorem onFiles_perform_eq_ok {ε : Type} {convert : FileError → ε}
    {op : FileSystem → Except FileError FileSystem} {bench after : Bench} {done : Unit}
    (performed : onFiles convert (FileSystem.perform op) bench = (.ok done, after))
    : op bench.files = .ok after.files := by
  simp only [onFiles, FileSystem.perform] at performed
  cases result : op bench.files with
  | ok files =>
      rw [result] at performed
      cases performed
      rfl
  | error e =>
      rw [result] at performed
      cases performed

/-- A call that succeeded. -/
theorem call_eq_ok {Job : Type} {tool : Tool Job} {job : Job} {note : Call} {bench after : Bench}
    {done : Unit} (called : call tool job note bench = (.ok done, after))
    : tool bench.calls job bench.files = (.ok (), after.files) := by
  have ended : (tool bench.calls job bench.files).1 = .ok done := congrArg Prod.fst called
  have left : (tool bench.calls job bench.files).2 = after.files :=
    congrArg (·.2.files) called
  exact Prod.ext ended left

-----------------------------------------------------------------------------------------
-- Steps of rendering
-----------------------------------------------------------------------------------------

/-- The directories that an image is to be in are made. -/
def makeParent (png : Path) : Work RenderError Unit :=
  match png.parent? with
  | some dir => onFiles .file (FileSystem.makeDirectories dir)
  | none => pure ()

/-- The making of the directories of an image keeps what additions keep. -/
theorem Keeps.makeParent {relation : FileSystem → FileSystem → Prop} (chains : Chains relation)
    (grown : ∀ fs after, FileSystem.Frame FileSystem.nowhere fs after → relation fs after)
    (png : Path)
    : Keeps relation (makeParent png) := by
  rw [Latex.makeParent]
  split
  · exact .makeDirectories _ _ grown
  · exact .pure chains ()

/-- The steps of rendering up to the drawing of the image. -/
theorem renderIn_none (scratch : Path) (renderer : Renderer) (baseDir : Path) (source : String)
    (png : Path)
    : renderIn scratch renderer baseDir source png none
      = (do
          onFiles .file
            (FileSystem.perform fun fs => fs.writeText (scratch.child "file.tex") source)
          typesetAll renderer ⟨scratch.child "file.tex", scratch, baseDir⟩ source typesetPasses
          makeParent png
          call renderer.rasterize ⟨scratch.child "file.pdf", png, scratch⟩
            (.rasterize ⟨scratch.child "file.pdf", png, scratch⟩)) := by
  simp only [renderIn, makeParent]
  cases png.parent? <;> simp

/-- The typeset document is copied after everything else was done. -/
theorem renderIn_some (scratch : Path) (renderer : Renderer) (baseDir : Path) (source : String)
    (png pdf : Path)
    : renderIn scratch renderer baseDir source png (some pdf)
      = (renderIn scratch renderer baseDir source png none >>= fun _ =>
          onFiles .file (FileSystem.perform fun fs => fs.copy (scratch.child "file.pdf") pdf)) := by
  rw [renderIn_none]
  simp only [renderIn, makeParent]
  cases png.parent? <;> simp

/-- Rendering keeps what its steps keep: the writing of the source, the calls of the tools and the
making of directories.
-/
theorem Keeps.renderIn {relation : FileSystem → FileSystem → Prop} (chains : Chains relation)
    {scratch baseDir png : Path} {renderer : Renderer} {source : String}
    (written
      : ∀ fs after,
          fs.Filled (scratch.child "file.tex") (Text.utf8 source) after → relation fs after)
    (typeset
      : ∀ calls fs,
          relation fs (renderer.typeset calls ⟨scratch.child "file.tex", scratch, baseDir⟩ fs).2)
    (grown : ∀ fs after, FileSystem.Frame FileSystem.nowhere fs after → relation fs after)
    (drawn
      : ∀ calls fs,
          relation fs (renderer.rasterize calls ⟨scratch.child "file.pdf", png, scratch⟩ fs).2)
    : Keeps relation (renderIn scratch renderer baseDir source png none) := by
  rw [renderIn_none]
  refine .bind chains (.perform chains _ fun fs after done => ?_) fun _ => ?_
  · exact written fs after (FileSystem.filled_of_write done)
  refine .bind chains (.typesetAll chains typeset source typesetPasses) fun _ => ?_
  exact .bind chains (.makeParent chains grown png) fun _ => .call _ drawn

/-- What a tool that typesets does with the source that rendering gives it, when it succeeds: the
document of the source is there, and the source is left as it is.
-/
structure Typesets (document : String → List UInt8) (tool : Tool TypesetJob) : Prop where
  document
    : ∀ calls scratch workingDir fs after source,
        fs.read (scratch.child "file.tex") = .ok (Text.utf8 source)
        → tool calls ⟨scratch.child "file.tex", scratch, workingDir⟩ fs = (.ok (), after)
        → after.read (scratch.child "file.pdf") = .ok (document source)
  source
    : ∀ calls scratch workingDir fs after source,
        fs.read (scratch.child "file.tex") = .ok (Text.utf8 source)
        → tool calls ⟨scratch.child "file.tex", scratch, workingDir⟩ fs = (.ok (), after)
        → after.read (scratch.child "file.tex") = .ok (Text.utf8 source)

/-- What a tool that draws leaves as it is when it succeeds: the document that it finds, unless the
image is to go there.
-/
def Spares (document : String → List UInt8) (tool : Tool RasterJob) : Prop :=
  ∀ calls job fs after source,
    fs.read job.pdf = .ok (document source)
    → tool calls job fs = (.ok (), after)
    → job.pdf.place after.here ≠ job.png.place after.here
    → after.read job.pdf = .ok (document source)

/-- After at least one pass the document is there, by induction on the number of passes. -/
theorem read_of_typesetAll {document : String → List UInt8} {renderer : Renderer}
    (typesets : Typesets document renderer.typeset) {scratch baseDir : Path} {source : String}
    (passes : Nat) {bench after : Bench} {done : Unit}
    (present : bench.files.read (scratch.child "file.tex") = .ok (Text.utf8 source))
    (typeset
      : typesetAll renderer ⟨scratch.child "file.tex", scratch, baseDir⟩ source (passes + 1) bench
        = (.ok done, after))
    : after.files.read (scratch.child "file.pdf") = .ok (document source) := by
  induction passes generalizing bench with
  | zero =>
      obtain ⟨_, middle, called, rest⟩ := bind_eq_ok_iff.mp typeset
      cases rest
      exact typesets.document _ _ _ _ _ source present (call_eq_ok called)
  | succ passes ih =>
      obtain ⟨_, middle, called, rest⟩ := bind_eq_ok_iff.mp typeset
      exact ih (typesets.source _ _ _ _ _ source present (call_eq_ok called)) rest

/-- If rendering succeeds, the tool that draws has succeeded, and found the document. -/
theorem exists_rasterize_of_renderIn {renderer : Renderer} {scratch baseDir png : Path}
    {source : String} {bench after : Bench} {done : Unit}
    (rendered : renderIn scratch renderer baseDir source png none bench = (.ok done, after))
    : ∃ calls fs,
        (∀ document, Typesets document renderer.typeset →
          fs.read (scratch.child "file.pdf") = .ok (document source))
        ∧ renderer.rasterize calls ⟨scratch.child "file.pdf", png, scratch⟩ fs
          = (.ok (), after.files) := by
  rw [renderIn_none] at rendered
  obtain ⟨_, first, written, rendered⟩ := bind_eq_ok_iff.mp rendered
  obtain ⟨_, second, typeset, rendered⟩ := bind_eq_ok_iff.mp rendered
  obtain ⟨_, third, grown, drawn⟩ := bind_eq_ok_iff.mp rendered
  refine ⟨third.calls, third.files, fun document typesets => ?_, call_eq_ok drawn⟩
  have present : first.files.read (scratch.child "file.tex") = .ok (Text.utf8 source) :=
    (FileSystem.filled_of_write (onFiles_perform_eq_ok written)).read
  have finished : second.files.read (scratch.child "file.pdf") = .ok (document source) :=
    read_of_typesetAll typesets 1 present typeset
  have added : FileSystem.Frame FileSystem.nowhere second.files third.files := by
    have frame := Keeps.makeParent (chains_frame _) (fun _ _ frame => frame) png second
    rwa [grown] at frame
  exact added.within.read finished

/-- Rendering either cannot make its scratch directory, or works in it and drops it in the end. -/
theorem render_cases (renderer : Renderer) (baseDir : Path) (source : String) (png : Path)
    (pdf : Option Path) (bench : Bench)
    : (∃ error, render renderer baseDir source png pdf bench = (.error error, bench))
      ∨ ∃ scratch files result middle,
          scratch = freshScratch bench.files
          ∧ bench.files.makeDirectory (pathTo scratch) = .ok files
          ∧ renderIn (pathTo scratch) renderer baseDir source png pdf ⟨files, bench.calls⟩
            = (result, middle)
          ∧ render renderer baseDir source png pdf bench
            = (result, ⟨middle.files.drop scratch, middle.calls⟩) := by
  delta render
  generalize named : freshScratch bench.files = scratch
  cases made : bench.files.makeDirectory (pathTo scratch) with
  | error e => exact .inl ⟨.file e, by simp only [made]⟩
  | ok files =>
      generalize inside : renderIn (pathTo scratch) renderer baseDir source png pdf
        ⟨files, bench.calls⟩ = worked
      obtain ⟨result, middle⟩ := worked
      refine .inr ⟨scratch, files, result, middle, rfl, made, inside, ?_⟩
      simp only [made, inside]

/-- If rendering succeeds, so has the work in the scratch directory, which is dropped in the end. -/
theorem exists_renderIn_of_render {renderer : Renderer} {baseDir png : Path} {source : String}
    {pdf : Option Path} {bench after : Bench}
    (rendered : render renderer baseDir source png pdf bench = (.ok (), after))
    : ∃ scratch files middle,
        scratch = freshScratch bench.files
        ∧ bench.files.makeDirectory (pathTo scratch) = .ok files
        ∧ renderIn (pathTo scratch) renderer baseDir source png pdf ⟨files, bench.calls⟩
          = (.ok (), middle)
        ∧ after.files = middle.files.drop scratch := by
  rcases render_cases renderer baseDir source png pdf bench with
    ⟨error, ended⟩ | ⟨scratch, files, result, middle, named, made, inside, ended⟩
  · cases ended.symm.trans rendered
  · obtain ⟨rfl, rfl⟩ := Prod.mk.inj (ended.symm.trans rendered)
    exact ⟨scratch, files, middle, named, made, inside, rfl⟩

end Publication.Latex
