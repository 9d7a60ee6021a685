import Publication.Proofs.Latex.Confinement
import Publication.Proofs.Latex.Requests

/-! The files of images. Each image has a name of its own, and so have its file and that of its
document; rendering one leaves those of the others alone, and stores a hash that is found again.
-/

namespace Publication.Latex

open Publication.Hash Publication.Naming

-----------------------------------------------------------------------------------------
-- The files of images
-----------------------------------------------------------------------------------------

/-- Where a compiler puts a file that goes among the images. -/
def Compiler.pathOf (compiler : Compiler) (file : String) : Path :=
  compiler.baseDir.child (compiler.relative file)

/-- The files of images are in one directory. -/
theorem Compiler.folder_pathOf (compiler : Compiler) : Folder compiler.pathOf := by
  by_cases flat : (compiler.imageDir.isEmpty || compiler.imageDir = ".") = true
  · have bare : compiler.pathOf = compiler.baseDir.child := by
      funext file
      simp only [pathOf, relative, if_pos flat]
    rw [bare]
    exact folder_child compiler.baseDir
  · have deep : compiler.pathOf
        = fun file => compiler.baseDir.child (compiler.imageDir ++ "/" ++ file) := by
      funext file
      simp only [pathOf, relative, if_neg flat]
    rw [deep]
    exact folder_child_of_separator compiler.baseDir compiler.imageDir

/-- A name for an image: it can stand before the ending of a file. -/
def IsId (id : String) : Prop := '/' ∉ id.toList ∧ '.' ∉ id.toList

/-- The names that are handed out for images are plain: letters, digits, low lines and hyphens. -/
theorem mem_unique_imageBase [Transliteration] {alt : String} {taken : List String} {c : Char}
    (member : c ∈ (unique (imageBase alt) taken).toList)
    : c.isAlphanum = true ∨ c = '_' ∨ c = '-' := by
  by_cases digit : c.isDigit = true
  · exact .inl (Bool.or_eq_true_iff.mpr (.inr digit))
  by_cases low : c = '_'
  · exact .inr (.inl low)
  have base : c ∈ (imageBase alt).toList :=
    Decidable.not_not.mp fun absent =>
      not_mem_unique absent (Bool.eq_false_iff.mpr digit) low taken member
  simp only [imageBase] at base
  split at base
  · have plain : ∀ d ∈ fallbackName.toList, d.isAlphanum = true := by simp [fallbackName]
    exact .inl (plain c base)
  · rcases mem_slugify base with same | plain | same | same
    · exact absurd same low
    · exact .inl plain
    · exact absurd same low
    · exact .inr (.inr same)

theorem isId_unique [Transliteration] (alt : String) (taken : List String)
    : IsId (unique (imageBase alt) taken) := by
  have absent {c : Char} (other : c.isAlphanum = false) (low : c ≠ '_') (hyphen : c ≠ '-')
      : c ∉ (unique (imageBase alt) taken).toList := by
    intro member
    rcases mem_unique_imageBase member with plain | same | same
    · rw [plain] at other
      cases other
    · exact low same
    · exact hyphen same
  exact ⟨absent rfl (by decide) (by decide), absent rfl (by decide) (by decide)⟩

/-- The image of a name that has been claimed, or the document of its source. -/
def IsFileOf (id file : String) : Prop := IsId id ∧ (file = id ++ ".png" ∨ file = id ++ ".pdf")

/-- The files of a name are names with a dot. -/
theorem IsFileOf.isName {id file : String} (belongs : IsFileOf id file)
    : IsName file ∧ '.' ∈ file.toList := by
  obtain ⟨proper, rfl | rfl⟩ := belongs
  all_goals
    refine ⟨isName_of_length ?_ ?_, by simp⟩
    · simpa using proper.1
    · simp

/-- The files of different names are different. -/
theorem IsFileOf.eq_of_eq {id other file : String} (belongs : IsFileOf id file)
    (same : IsFileOf other file)
    : id = other := by
  obtain ⟨_, rfl | rfl⟩ := belongs
  all_goals
    obtain ⟨_, whole | whole⟩ := same
    all_goals
      have texts := congrArg String.toList whole
      rw [String.toList_append, String.toList_append] at texts
      exact String.toList_inj.mp (List.append_inj' texts (by simp)).1

/-- Where an image goes, its document does not. -/
theorem Compiler.place_png_ne (compiler : Compiler) {id : String} (proper : IsId id)
    (here : Location)
    : (compiler.pathOf (id ++ ".png")).place here
      ≠ (compiler.pathOf (id ++ ".pdf")).place here := by
  have image : IsFileOf id (id ++ ".png") := ⟨proper, .inl rfl⟩
  have document : IsFileOf id (id ++ ".pdf") := ⟨proper, .inr rfl⟩
  obtain ⟨dir, _, leads⟩ := compiler.folder_pathOf.leads here
  rw [(leads _ image.isName.1).1, (leads _ document.isName.1).1]
  intro same
  have whole : id ++ ".png" = id ++ ".pdf" := (List.append_singleton_inj.mp same).2
  simpa using congrArg String.toList whole

-----------------------------------------------------------------------------------------
-- Images that have been rendered
-----------------------------------------------------------------------------------------

/-- What is stored in a file of these octets is found again. -/
def Storable (bytes : List UInt8) : Prop :=
  ∀ fs after png source,
    fs.read png = .ok bytes
    → storeHash fs png (Sha256.hexDigest source) = .ok after
    → storedHash after png = some (Sha256.hexDigest source)

/-- Renderers that write nothing but what they are asked for, and draw images that keep a hash. -/
structure Steady (renderer : Renderer) : Prop where
  confined : Confined renderer
  storable
    : ∀ calls job fs after bytes,
        renderer.rasterize calls job fs = (.ok (), after)
        → after.read job.png = .ok bytes
        → Storable bytes

section

variable {renderer : Renderer} {baseDir png : Path} {source : String} {pdf : Option Path}
  {bench after : Bench}

/-- The image that is found after rendering is storable, if the document went elsewhere. -/
theorem Steady.storable_of_render (steady : Steady renderer)
    (apart : ∀ path ∈ pdf, ∀ here, png.place here ≠ path.place here) {bytes : List UInt8}
    (rendered : render renderer baseDir source png pdf bench = (.ok (), after))
    (read : after.files.read png = .ok bytes)
    : Storable bytes := by
  obtain ⟨scratch, files, middle, _, _, inside, dropped⟩ := exists_renderIn_of_render rendered
  rw [dropped] at read
  have present := (FileSystem.within_drop middle.files scratch).read read
  cases pdf with
  | none =>
      obtain ⟨calls, fs, _, drawn⟩ := exists_rasterize_of_renderIn inside
      exact steady.storable calls _ fs _ bytes drawn present
  | some path =>
      rw [renderIn_some] at inside
      obtain ⟨_, before, done, copied⟩ := bind_eq_ok_iff.mp inside
      obtain ⟨calls, fs, _, drawn⟩ := exists_rasterize_of_renderIn done
      obtain ⟨_, _, filled⟩ := FileSystem.filled_of_copy (onFiles_perform_eq_ok copied)
      exact steady.storable calls _ fs _ bytes drawn
        ((filled.read_iff (apart path rfl _) bytes).mp present)

/-- The hash of a source is found after it was stored in the image of a rendering. -/
theorem Steady.storedHash_of_render (steady : Steady renderer) {files : FileSystem}
    (apart : ∀ path ∈ pdf, ∀ here, png.place here ≠ path.place here)
    (rendered : render renderer baseDir source png pdf bench = (.ok (), after))
    (stored : storeHash after.files png (Sha256.hexDigest source) = .ok files)
    : storedHash files png = some (Sha256.hexDigest source) := by
  obtain ⟨bytes, _, _, read, _, _, _⟩ := storeHash_eq_ok stored
  exact steady.storable_of_render apart rendered read after.files files png source read stored

/-- Before the scratch directory is dropped, the document has been copied. -/
theorem exists_document_of_render {path : Path}
    (rendered : render renderer baseDir source png (some path) bench = (.ok (), after))
    : ∃ (scratch : Location) (middle : FileSystem) (octets : List UInt8),
        IsScratch scratch
        ∧ middle.read path = .ok octets
        ∧ after.files = middle.drop scratch := by
  obtain ⟨scratch, files, middle, named, _, inside, dropped⟩ := exists_renderIn_of_render rendered
  have proper : IsScratch scratch := by
    rw [named]
    exact isScratch_freshScratch bench.files
  rw [renderIn_some] at inside
  obtain ⟨_, before, _, copied⟩ := bind_eq_ok_iff.mp inside
  obtain ⟨_, _, filled⟩ := FileSystem.filled_of_copy (onFiles_perform_eq_ok copied)
  exact ⟨scratch, middle.files, _, proper, filled.read, dropped⟩

end

section

variable {compiler : Compiler} {id : String} {renderer : Renderer} {source : String}
  {pdf : Option Path} {bench after : Bench} {hash : String} {files : FileSystem}

/-- The directory of the images is there when a hash has been stored in one of them. -/
theorem Compiler.exists_directory_of_storeHash (compiler : Compiler) (proper : IsId id)
    {fs : FileSystem} (stored : storeHash fs (compiler.pathOf (id ++ ".png")) hash = .ok files)
    : ∃ dir,
        fs.entry? dir = some .directory
        ∧ ∀ file, IsName file →
            (compiler.pathOf file).place fs.here = dir ++ [file]
            ∧ fs.locate (compiler.pathOf file) = .ok (dir ++ [file]) := by
  obtain ⟨_, goal, _, led, _, _⟩ := filled_of_storeHash stored
  have named : IsFileOf id (id ++ ".png") := ⟨proper, .inl rfl⟩
  exact compiler.folder_pathOf.exists_directory named.isName.1 led

/-- The files of other images are left alone when an image has been rendered and its hash stored. -/
theorem Confined.at?_of_render (confined : Confined renderer) (proper : IsId id)
    (own : ∀ path ∈ pdf, path = compiler.pathOf (id ++ ".pdf"))
    (rendered
      : render renderer compiler.baseDir source (compiler.pathOf (id ++ ".png")) pdf bench
        = (.ok (), after))
    (stored : storeHash after.files (compiler.pathOf (id ++ ".png")) hash = .ok files)
    {other file : String} (belongs : IsFileOf other file) (apart : other ≠ id) {entry : Entry}
    (found : bench.files.at? (compiler.pathOf file) = .ok entry)
    : files.at? (compiler.pathOf file) = .ok entry := by
  obtain ⟨dir, directory, leads⟩ := compiler.exists_directory_of_storeHash proper stored
  obtain ⟨scratch, isScratch, gone, frame⟩ := confined.frame_render rendered
  obtain ⟨_, filled⟩ := filled_of_storeHash stored
  obtain ⟨place, located, held⟩ := (FileSystem.at?_eq_ok_iff _ _ _).mp found
  have there : dir ++ [file] = place := by
    rw [← (leads file belongs.isName.1).1, frame.here]
    exact ((FileSystem.locate_eq_ok_iff _ _ _).mp located).2.2
  subst there
  have elsewhere {own : String} (named : IsFileOf id own)
      : dir ++ [file] ≠ (compiler.pathOf own).place after.files.here := by
    rw [(leads own named.isName.1).1]
    intro same
    have whole : file = own := (List.append_singleton_inj.mp same).2
    exact apart (belongs.eq_of_eq (whole ▸ named))
  have png : IsFileOf id (id ++ ".png") := ⟨proper, .inl rfl⟩
  have kept : after.files.entry? (dir ++ [file]) = some entry := by
    refine frame.entry?_eq_some ?_ held
    rw [← frame.here]
    rintro (inside | same | ⟨_, path, asked, same⟩)
    · exact isScratch.not_below belongs.isName.2 (gone rfl) directory inside
    · exact elsewhere png same
    · rw [own path asked] at same
      exact elsewhere ⟨proper, .inr rfl⟩ same
  exact (FileSystem.at?_eq_ok_iff _ _ _).mpr
    ⟨dir ++ [file], (filled.locate_iff _ _).mpr (leads file belongs.isName.1).2,
      filled.frame.entry?_eq_some (elsewhere png) kept⟩

/-- The document is there when an image has been rendered with it and the hash stored. -/
theorem isPresent_of_render (proper : IsId id)
    (rendered
      : render renderer compiler.baseDir source (compiler.pathOf (id ++ ".png"))
          (some (compiler.pathOf (id ++ ".pdf"))) bench
        = (.ok (), after))
    (stored : storeHash after.files (compiler.pathOf (id ++ ".png")) hash = .ok files)
    : files.isPresent (compiler.pathOf (id ++ ".pdf")) = true := by
  obtain ⟨dir, directory, leads⟩ := compiler.exists_directory_of_storeHash proper stored
  obtain ⟨scratch, middle, octets, isScratch, read, dropped⟩ := exists_document_of_render rendered
  obtain ⟨_, filled⟩ := filled_of_storeHash stored
  have document : IsFileOf id (id ++ ".pdf") := ⟨proper, .inr rfl⟩
  obtain ⟨place, executable, located, held⟩ := (FileSystem.read_eq_ok_iff _ _ _).mp read
  have here : middle.here = after.files.here := by
    rw [dropped]
    rfl
  have there : dir ++ [id ++ ".pdf"] = place := by
    rw [← (leads _ document.isName.1).1, ← here]
    exact ((FileSystem.locate_eq_ok_iff _ _ _).mp located).2.2
  subst there
  have outside : ¬ scratch <+: dir ++ [id ++ ".pdf"] :=
    isScratch.not_below document.isName.2
      (fun _ inside => dropped ▸ FileSystem.entry?_drop_below middle isScratch.ne_nil inside)
      directory
  have kept := (FileSystem.frame_drop middle scratch).entry?_eq_some outside held
  rw [← dropped] at kept
  have apart : dir ++ [id ++ ".pdf"]
      ≠ (compiler.pathOf (id ++ ".png")).place after.files.here := by
    rw [← (leads _ document.isName.1).1]
    exact Ne.symm (compiler.place_png_ne proper _)
  exact (FileSystem.isPresent_iff _ _).mpr ⟨_, (FileSystem.at?_eq_ok_iff _ _ _).mpr
    ⟨_, (filled.locate_iff _ _).mpr (leads _ document.isName.1).2,
      filled.frame.entry?_eq_some apart kept⟩⟩

end

end Publication.Latex
