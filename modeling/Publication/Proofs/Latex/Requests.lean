import Publication.Proofs.Latex.Rendering
import Publication.Proofs.Latex.StoredHash

/-! Requests for images, one after another, on the same files. Each is made with a compiler and a
renderer of its own, and ends in one of four ways.
-/

namespace Publication.Latex

open Publication.Hash

/-- The hash of the document for a body under a compiler. -/
def Compiler.hash (compiler : Compiler) (body : String) : String :=
  Sha256.hexDigest (compiler.compose body)

theorem onBench_of_ok {ε α : Type} (convert : ε → Error) {work : Work ε α} {shop : Workshop}
    {bench : Bench} {a : α} (done : work shop.bench = (.ok a, bench))
    : onBench convert work shop = (.ok a, ⟨shop.compiler, bench⟩) := by
  simp only [onBench, done]

theorem onBench_of_error {ε α : Type} (convert : ε → Error) {work : Work ε α} {shop : Workshop}
    {bench : Bench} {e : ε} (failed : work shop.bench = (.error e, bench))
    : onBench convert work shop = (.error (convert e), ⟨shop.compiler, bench⟩) := by
  simp only [onBench, failed]

theorem revise_of_ok {ε : Type} {change : FileSystem → Except ε FileSystem} {bench : Bench}
    {files : FileSystem} (changed : change bench.files = .ok files)
    : revise change bench = (.ok (), ⟨files, bench.calls⟩) := by
  simp only [revise, changed]

theorem revise_of_error {ε : Type} {change : FileSystem → Except ε FileSystem} {bench : Bench}
    {e : ε} (failed : change bench.files = .error e)
    : revise change bench = (.error e, bench) := by
  simp only [revise, failed]

/-- A change of the files that has succeeded. -/
theorem revise_eq_ok {ε : Type} {change : FileSystem → Except ε FileSystem} {bench after : Bench}
    {done : Unit} (revised : revise change bench = (.ok done, after))
    : ∃ files, change bench.files = .ok files ∧ after = ⟨files, bench.calls⟩ := by
  simp only [revise] at revised
  split at revised
  next files changed =>
      cases revised
      exact ⟨files, changed, rfl⟩
  next => cases revised

/-- How a request for an image ends: the image is kept, or it is not rendered, or it is rendered and
then its hash is stored or not.
-/
inductive Handled (renderer : Renderer) (body : String) (png : Path) (pdf : Option Path)
    (shop : Workshop)
    : Except Error Outcome × Workshop → Prop where
  | cached (current : isCurrent shop.bench.files png pdf (shop.compiler.hash body) = true)
    : Handled renderer body png pdf shop
        (.ok .cached, ⟨{ shop.compiler with usage := shop.compiler.usage.hit }, shop.bench⟩)
  | unrendered {error : RenderError} {bench : Bench}
      (stale : isCurrent shop.bench.files png pdf (shop.compiler.hash body) = false)
      (failed
        : render renderer shop.compiler.baseDir (shop.compiler.compose body) png pdf shop.bench
          = (.error error, bench))
    : Handled renderer body png pdf shop
        (.error (.unrendered (snippet body) error), ⟨shop.compiler, bench⟩)
  | unstored {error : CacheError} {bench : Bench}
      (stale : isCurrent shop.bench.files png pdf (shop.compiler.hash body) = false)
      (drawn
        : render renderer shop.compiler.baseDir (shop.compiler.compose body) png pdf shop.bench
          = (.ok (), bench))
      (failed : storeHash bench.files png (shop.compiler.hash body) = .error error)
    : Handled renderer body png pdf shop (.error (.cache error), ⟨shop.compiler, bench⟩)
  | rendered {bench : Bench} {files : FileSystem}
      (stale : isCurrent shop.bench.files png pdf (shop.compiler.hash body) = false)
      (drawn
        : render renderer shop.compiler.baseDir (shop.compiler.compose body) png pdf shop.bench
          = (.ok (), bench))
      (stored : storeHash bench.files png (shop.compiler.hash body) = .ok files)
    : Handled renderer body png pdf shop
        (.ok .rendered,
          ⟨{ shop.compiler with usage := shop.compiler.usage.miss }, ⟨files, bench.calls⟩⟩)

/-- Every request ends in one of these ways. -/
theorem handled (renderer : Renderer) (body : String) (png : Path) (pdf : Option Path)
    (shop : Workshop)
    : Handled renderer body png pdf shop (renderOrReuse renderer body png pdf shop) := by
  rw [renderOrReuse, bind_of_ok (show (get : Compiling Workshop) shop = (.ok shop, shop) from rfl)]
  change Handled renderer body png pdf shop
    ((if isCurrent shop.bench.files png pdf (shop.compiler.hash body) = true then _
      else _ : Compiling Outcome) shop)
  cases current : isCurrent shop.bench.files png pdf (shop.compiler.hash body) with
  | true =>
      rw [if_pos rfl]
      exact .cached current
  | false =>
      rw [if_neg Bool.false_ne_true]
      rcases drawn : render renderer shop.compiler.baseDir (shop.compiler.compose body) png pdf
        shop.bench with ⟨error | _, bench⟩
      · rw [bind_of_error (onBench_of_error _ drawn)]
        exact .unrendered current drawn
      · rw [bind_of_ok (onBench_of_ok _ drawn)]
        cases stored : storeHash bench.files png (shop.compiler.hash body) with
        | error error =>
            rw [bind_of_error (onBench_of_error _ (revise_of_error stored))]
            exact .unstored current drawn stored
        | ok files =>
            rw [bind_of_ok (onBench_of_ok _ (revise_of_ok stored))]
            exact .rendered current drawn stored

/-- A request for an image, with the compiler and the renderer that it is made with. -/
structure Request where
  compiler : Compiler
  renderer : Renderer
  body : String
  png : Path
  pdf : Option Path

namespace Request

/-- The document that a request is for. -/
def source (request : Request) : String := request.compiler.compose request.body

/-- What becomes of a request, and of the files. -/
def perform (request : Request) (bench : Bench) : Except Error Outcome × Bench :=
  let (result, shop) := renderOrReuse request.renderer request.body request.png request.pdf
    ⟨request.compiler, bench⟩
  (result, shop.bench)

/-- The rendering that a request may need. -/
def render (request : Request) : Work RenderError Unit :=
  Latex.render request.renderer request.compiler.baseDir request.source request.png request.pdf

/-- The four ways in which a request ends. -/
theorem perform_cases (request : Request) (bench : Bench)
    : (isCurrent bench.files request.png request.pdf (Sha256.hexDigest request.source) = true
        ∧ request.perform bench = (.ok .cached, bench))
      ∨ (∃ error after,
          request.render bench = (.error error, after)
          ∧ request.perform bench = (.error (.unrendered (snippet request.body) error), after))
      ∨ (∃ error after,
          request.render bench = (.ok (), after)
          ∧ request.perform bench = (.error (.cache error), after))
      ∨ ∃ after files,
          request.render bench = (.ok (), after)
          ∧ storeHash after.files request.png (Sha256.hexDigest request.source) = .ok files
          ∧ request.perform bench = (.ok .rendered, ⟨files, after.calls⟩) := by
  have ended := handled request.renderer request.body request.png request.pdf
    ⟨request.compiler, bench⟩
  simp only [perform]
  generalize renderOrReuse request.renderer request.body request.png request.pdf
    ⟨request.compiler, bench⟩ = after at ended
  cases ended with
  | cached current => exact .inl ⟨current, rfl⟩
  | unrendered stale failed => exact .inr (.inl ⟨_, _, failed, rfl⟩)
  | unstored stale drawn failed => exact .inr (.inr (.inl ⟨_, _, drawn, rfl⟩))
  | rendered stale drawn stored => exact .inr (.inr (.inr ⟨_, _, drawn, stored, rfl⟩))

/-- A request that has succeeded has found its image current, or rendered it and stored the hash. -/
theorem perform_eq_ok {request : Request} {bench after : Bench} {outcome : Outcome}
    (performed : request.perform bench = (.ok outcome, after))
    : (isCurrent bench.files request.png request.pdf (Sha256.hexDigest request.source) = true
        ∧ after = bench)
      ∨ ∃ middle files,
          request.render bench = (.ok (), middle)
          ∧ storeHash middle.files request.png (Sha256.hexDigest request.source) = .ok files
          ∧ after = ⟨files, middle.calls⟩ := by
  rcases request.perform_cases bench with
    ⟨current, ended⟩ | ⟨error, _, _, ended⟩ | ⟨error, _, _, ended⟩
    | ⟨middle, files, drawn, stored, ended⟩
  · exact .inl ⟨current, (Prod.mk.inj (performed.symm.trans ended)).2⟩
  · cases ended.symm.trans performed
  · cases ended.symm.trans performed
  · exact .inr ⟨middle, files, drawn, stored, (Prod.mk.inj (performed.symm.trans ended)).2⟩

/-- A request that has succeeded has rendered or kept its image with the same result. -/
theorem exists_renderOrReuse_of_perform {request : Request} {bench after : Bench}
    {outcome : Outcome} (performed : request.perform bench = (.ok outcome, after))
    : ∃ compiler,
        renderOrReuse request.renderer request.body request.png request.pdf
            ⟨request.compiler, bench⟩
          = (.ok outcome, ⟨compiler, after⟩) := by
  rcases ended : renderOrReuse request.renderer request.body request.png request.pdf
    ⟨request.compiler, bench⟩ with ⟨result, shop⟩
  simp only [perform, ended] at performed
  cases performed
  exact ⟨shop.compiler, rfl⟩

/-- What becomes of a request whose source has a given hash. -/
def performWith (request : Request) (hash : String) (bench : Bench)
    : Except Error Outcome × Bench :=
  if isCurrent bench.files request.png request.pdf hash then (.ok .cached, bench)
  else
    match request.render bench with
    | (.error error, bench) => (.error (.unrendered (snippet request.body) error), bench)
    | (.ok (), bench) =>
        match storeHash bench.files request.png hash with
        | .error error => (.error (.cache error), bench)
        | .ok files => (.ok .rendered, ⟨files, bench.calls⟩)

/-- A request can be computed once the hash of its source is known. -/
theorem perform_eq (request : Request) (bench : Bench)
    : request.perform bench
      = request.performWith (request.compiler.hash request.body) bench := by
  have ended := handled request.renderer request.body request.png request.pdf
    ⟨request.compiler, bench⟩
  simp only [perform]
  generalize renderOrReuse request.renderer request.body request.png request.pdf
    ⟨request.compiler, bench⟩ = after at ended
  cases ended with
  | cached current => simp [performWith, current]
  | unrendered stale failed => simp [performWith, stale, render, source, failed]
  | unstored stale drawn failed => simp [performWith, stale, render, source, drawn, failed]
  | rendered stale drawn stored => simp [performWith, stale, render, source, drawn, stored]

/-- A request leaves all as it is if the hash of its source is stored and its document is there. -/
theorem perform_of_storedHash {request : Request} {bench : Bench}
    (present : ∀ path, request.pdf = some path → bench.files.isPresent path = true)
    (stored : storedHash bench.files request.png = some (Sha256.hexDigest request.source))
    : request.perform bench = (.ok .cached, bench) := by
  have current : isCurrent bench.files request.png request.pdf
      (request.compiler.hash request.body) = true := by
    rw [isCurrent, stored]
    cases asked : request.pdf with
    | none => simp [Compiler.hash, source]
    | some path => simp [Compiler.hash, source, present path asked]
  rw [perform_eq, performWith, if_pos current]

end Request

/-- What becomes of the files when requests are made one after another. -/
def run (requests : List Request) (bench : Bench) : Bench :=
  requests.foldl (fun bench request => (request.perform bench).2) bench

theorem run_append (requests others : List Request) (bench : Bench)
    : run (requests ++ others) bench = run others (run requests bench) :=
  List.foldl_append

end Publication.Latex
