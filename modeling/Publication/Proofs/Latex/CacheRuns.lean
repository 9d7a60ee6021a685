import Publication.Proofs.Latex.Sketch

/-! The hash in an image file never lies. Whatever requests are made, and however they end, a file
with the hash of a source shows the image of that source; so a request that succeeds leaves the
image of its own source, rendered or kept.
-/

namespace Publication.Latex

open Publication.Hash Publication.Image

/-- Every file with a hash shows the image of a source with that hash. -/
def Accounted (image : String → Png.Picture) (sources : String → Prop) (fs : FileSystem) : Prop :=
  ∀ place bytes executable hash,
    fs.entry? place = some (.file bytes executable)
    → hashIn? bytes = some hash
    → ∃ source picture,
        sources source
        ∧ hash = Sha256.hexDigest source
        ∧ Png.read? bytes = some picture
        ∧ SameImage (image source) picture

section

variable {document : String → List UInt8} {image : String → Png.Picture}
  {sources : String → Prop}

/-- Hashes stay accounted for while none is brought. -/
theorem Accounted.of_noNewHash {before after : FileSystem}
    (accounted : Accounted image sources before) (kept : NoNewHash before after)
    : Accounted image sources after := by
  intro place bytes executable hash held carried
  rcases kept place bytes executable held with bare | ⟨other, runs, there⟩
  · rw [bare] at carried
    cases carried
  · exact accounted other bytes runs hash there carried

/-- The hash of a source is accounted for when it is stored with the image of the source. -/
theorem Accounted.of_storeHash {fs after : FileSystem} {png : Path} {source : String}
    (accounted : Accounted image sources fs) (occurs : sources source)
    (survives : ∀ picture, SameImage (image source) picture → SurvivesStoring picture)
    (shown
      : ∀ bytes picture,
          fs.read png = .ok bytes → Png.read? bytes = some picture
          → SameImage (image source) picture)
    (stored : storeHash fs png (Sha256.hexDigest source) = .ok after)
    : Accounted image sources after := by
  obtain ⟨bytes, picture, rewritten, read, decoded, _, filled⟩ := storeHash_eq_ok stored
  have same := shown bytes picture read decoded
  obtain ⟨carried, again, redecoded, reread, decodes, kept⟩ :=
    survives picture same fs after png bytes source read decoded stored
  obtain rfl : rewritten = again := Except.ok.inj (filled.read.symm.trans reread)
  intro place found executable hash held carries
  obtain ⟨runs, entries⟩ := filled.entry?
  rw [entries] at held
  split at held
  · obtain ⟨rfl, _⟩ := Entry.file.inj (Option.some.inj held)
    rw [storedHash_of_read filled.read, carries] at carried
    exact ⟨source, redecoded, occurs, Option.some.inj carried, decodes, same.trans kept⟩
  · exact accounted place found executable hash held carries

/-- The file with the hash of a source shows its image, where hashes are accounted for and tell
sources apart.
-/
theorem Accounted.exists_image {fs : FileSystem} {png : Path} {source : String}
    (accounted : Accounted image sources fs) (occurs : sources source)
    (distinct
      : ∀ one other, sources one → sources other
          → Sha256.hexDigest one = Sha256.hexDigest other → one = other)
    (carried : storedHash fs png = some (Sha256.hexDigest source))
    : ∃ bytes picture,
        fs.read png = .ok bytes
        ∧ Png.read? bytes = some picture
        ∧ SameImage (image source) picture := by
  obtain ⟨bytes, read, carries⟩ := exists_of_storedHash carried
  obtain ⟨place, executable, _, held⟩ := (FileSystem.read_eq_ok_iff fs png bytes).mp read
  obtain ⟨other, picture, known, hash, decoded, same⟩ :=
    accounted place bytes executable _ held carries
  obtain rfl := distinct source other occurs known hash
  exact ⟨bytes, picture, read, decoded, same⟩

/-- A request keeps hashes accounted for, however it ends. -/
theorem Accounted.perform {request : Request} {bench : Bench}
    (accounted : Accounted image sources bench.files) (occurs : sources request.source)
    (faithful : Faithful document image request.renderer)
    (survives : ∀ picture, SameImage (image request.source) picture → SurvivesStoring picture)
    : Accounted image sources (request.perform bench).2.files := by
  have plain : hashIn? (Text.utf8 request.source) = none := hashIn?_compose _ _
  have rendering : NoNewHash bench.files (request.render bench).2.files := by
    rw [Request.render]
    exact faithful.keeps_render plain bench
  rcases request.perform_cases bench with
    ⟨current, ended⟩ | ⟨error, after, failed, ended⟩ | ⟨error, after, drawn, ended⟩
    | ⟨after, files, drawn, stored, ended⟩
  · rw [ended]
    exact accounted
  · rw [failed] at rendering
    rw [ended]
    exact accounted.of_noNewHash rendering
  · rw [drawn] at rendering
    rw [ended]
    exact accounted.of_noNewHash rendering
  · rw [drawn] at rendering
    rw [ended]
    exact (accounted.of_noNewHash rendering).of_storeHash occurs survives
      (fun _ _ => faithful.sameImage_of_render drawn) stored

/-- Requests keep hashes accounted for, by induction on them. -/
theorem Accounted.run {requests : List Request} {bench : Bench}
    (accounted : Accounted image sources bench.files)
    (occur : ∀ request ∈ requests, sources request.source)
    (faithful : ∀ request ∈ requests, Faithful document image request.renderer)
    (survive
      : ∀ request ∈ requests, ∀ picture,
          SameImage (image request.source) picture → SurvivesStoring picture)
    : Accounted image sources (run requests bench).files := by
  induction requests generalizing bench with
  | nil => exact accounted
  | cons request requests ih =>
      have first := accounted.perform (occur request (by simp)) (faithful request (by simp))
        (survive request (by simp))
      exact ih first (fun other member => occur other (by simp [member]))
        (fun other member => faithful other (by simp [member]))
        (fun other member => survive other (by simp [member]))

end

/-- A source that one of the requests is for. -/
def IsSource (requests : List Request) (source : String) : Prop :=
  ∃ request ∈ requests, request.source = source

/-- A request that succeeds leaves the image of its source, whatever requests were made before it
and however they ended, if no file had a hash in the beginning and hashes tell the sources apart.
-/
theorem exists_image_of_perform {document : String → List UInt8} {image : String → Png.Picture}
    {requests : List Request} {request : Request} {bench after : Bench} {outcome : Outcome}
    (fresh
      : ∀ place bytes executable,
          bench.files.entry? place = some (.file bytes executable) → hashIn? bytes = none)
    (faithful : ∀ made ∈ requests ++ [request], Faithful document image made.renderer)
    (survive
      : ∀ made ∈ requests ++ [request], ∀ picture,
          SameImage (image made.source) picture → SurvivesStoring picture)
    (distinct
      : ∀ one ∈ requests ++ [request], ∀ other ∈ requests ++ [request],
          Sha256.hexDigest one.source = Sha256.hexDigest other.source
          → one.source = other.source)
    (performed : request.perform (run requests bench) = (.ok outcome, after))
    : ∃ bytes picture,
        after.files.read request.png = .ok bytes
        ∧ Png.read? bytes = some picture
        ∧ SameImage (image request.source) picture := by
  have start : Accounted image (IsSource (requests ++ [request])) bench.files := by
    intro place bytes executable hash held carried
    rw [fresh place bytes executable held] at carried
    cases carried
  have earlier (made : Request) (member : made ∈ requests) : made ∈ requests ++ [request] :=
    List.mem_append_left _ member
  have last : request ∈ requests ++ [request] := by simp
  have before : Accounted image (IsSource (requests ++ [request])) (run requests bench).files :=
    start.run (fun made member => ⟨made, earlier made member, rfl⟩)
      (fun made member => faithful made (earlier made member))
      (fun made member => survive made (earlier made member))
  have accounted :=
    before.perform ⟨request, last, rfl⟩ (faithful request last) (survive request last)
  rw [performed] at accounted
  have carried := storedHash_of_perform (faithful request last) (survive request last) performed
  refine accounted.exists_image ⟨request, last, rfl⟩ ?_ carried
  rintro _ _ ⟨one, first, rfl⟩ ⟨other, second, rfl⟩ same
  exact distinct one first other second same

/-- A letter that is asked for again without its document is kept, and is the letter. -/
theorem exists_image_of_letter
    : ∃ after bytes picture,
        (letter "A" none).perform (run [letter "A" (some ⟨"a.pdf"⟩)] emptyDesk)
          = (.ok .cached, after)
        ∧ after.files.read (letter "A" none).png = .ok bytes
        ∧ Png.read? bytes = some picture
        ∧ SameImage (sketchImage (letter "A" none).source) picture := by
  have blank : storedHash emptyDesk.files (letter "A" (some ⟨"a.pdf"⟩)).png = none := by
    decide +kernel
  have first := @perform_of_render (letter "A" (some ⟨"a.pdf"⟩)) emptyDesk rfl
    (by decide +kernel) (by rw [isCurrent, blank]; exact Bool.and_false _) (by decide +kernel)
    (by decide +kernel)
  have runs : run [letter "A" (some ⟨"a.pdf"⟩)] emptyDesk
      = (letter "A" (some ⟨"a.pdf"⟩)).signed emptyDesk := by
    rw [run, List.foldl_cons, List.foldl_nil, first]
  have kept := storedHash_of_perform faithful_sketcher
    (fun _ => survives_sketchImage (letter "A" (some ⟨"a.pdf"⟩)).source) first
  rw [← runs] at kept
  have sameSource : (letter "A" none).source = (letter "A" (some ⟨"a.pdf"⟩)).source := rfl
  have samePath : (letter "A" none).png = (letter "A" (some ⟨"a.pdf"⟩)).png := rfl
  rw [← sameSource, ← samePath] at kept
  have second := Request.perform_of_storedHash (fun _ asked => by cases asked) kept
  have both (made : Request)
      (member : made ∈ [letter "A" (some ⟨"a.pdf"⟩)] ++ [letter "A" none])
      : made = letter "A" (some ⟨"a.pdf"⟩) ∨ made = letter "A" none := by
    simpa using member
  obtain ⟨bytes, picture, image⟩ := exists_image_of_perform
    (fun place bytes executable held => absurd held (entry?_emptyDesk place bytes executable))
    (fun made member => by
      rcases both made member with rfl | rfl <;> exact faithful_sketcher)
    (fun made _ _ => survives_sketchImage made.source)
    (fun one first other second _ => by
      rcases both one first with rfl | rfl <;> rcases both other second with rfl | rfl <;>
        simp only [sameSource])
    second
  exact ⟨_, bytes, picture, second, image⟩

end Publication.Latex
