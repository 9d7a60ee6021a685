import Publication.Proofs.Latex.Requests

/-! Renderers that are true to their sources: they make the document and the image of a source, and
bring no hash of their own. Then rendering leaves the image of its source or none, and no new hash.
-/

namespace Publication.Latex

open Publication.Hash Publication.Image

-----------------------------------------------------------------------------------------
-- Steps that bring no hash
-----------------------------------------------------------------------------------------

/-- No file comes by a hash: each is as some file was before, or carries none. -/
def NoNewHash (before after : FileSystem) : Prop :=
  ∀ place bytes executable,
    after.entry? place = some (.file bytes executable)
    → hashIn? bytes = none ∨ ∃ other runs, before.entry? other = some (.file bytes runs)

/-- Steps that bring no hash chain. -/
theorem chains_noNewHash : Chains NoNewHash := by
  refine ⟨fun fs place bytes executable held => .inr ⟨place, executable, held⟩, ?_⟩
  intro first second third earlier later place bytes executable held
  rcases later place bytes executable held with bare | ⟨other, runs, kept⟩
  · exact .inl bare
  · exact earlier other bytes runs kept

theorem noNewHash_of_within {before after : FileSystem} (within : FileSystem.Within after before)
    : NoNewHash before after :=
  fun place _ executable held => .inr ⟨place, executable, within.entries _ _ held⟩

theorem noNewHash_of_frame {before after : FileSystem}
    (frame : FileSystem.Frame FileSystem.nowhere before after)
    : NoNewHash before after :=
  fun place bytes executable held =>
    .inr ⟨place, executable, (frame.file_iff id bytes executable).mp held⟩

/-- A file that is put brings no hash if it carries none, or is as some file was before. -/
theorem noNewHash_of_filled {fs after : FileSystem} {path : Path} {bytes : List UInt8}
    (filled : fs.Filled path bytes after)
    (known : hashIn? bytes = none ∨ ∃ source, fs.read source = .ok bytes)
    : NoNewHash fs after := by
  intro place found executable held
  obtain ⟨runs, entries⟩ := filled.entry?
  rw [entries] at held
  split at held
  · obtain ⟨rfl, _⟩ := Entry.file.inj (Option.some.inj held)
    rcases known with bare | ⟨source, read⟩
    · exact .inl bare
    · obtain ⟨other, runs, _, there⟩ := (FileSystem.read_eq_ok_iff fs source bytes).mp read
      exact .inr ⟨other, runs, there⟩
  · exact .inr ⟨place, executable, held⟩

/-- A document does not begin as a picture does, so it carries no hash. -/
theorem hashIn?_compose (compiler : Compiler) (body : String)
    : hashIn? (Text.utf8 (compiler.compose body)) = none := by
  have head : Text.utf8 templateHead = 0x5C :: (Text.utf8 templateHead).tail := by decide +kernel
  have whole : ∃ rest, Text.utf8 (compiler.compose body) = 0x5C :: rest := by
    simp only [Compiler.compose, Text.utf8, String.toUTF8, String.toByteArray_append,
      ByteArray.data_append, Array.toList_append, List.append_assoc]
    rw [show templateHead.toByteArray.data.toList = Text.utf8 templateHead from rfl, head]
    exact ⟨_, rfl⟩
  obtain ⟨rest, octets⟩ := whole
  rw [octets]
  rfl

-----------------------------------------------------------------------------------------
-- What is assumed of tools and images
-----------------------------------------------------------------------------------------

/-- The file of a picture shows the picture and tells the hash when that of a source is stored. -/
def SurvivesStoring (picture : Png.Picture) : Prop :=
  ∀ (fs after : FileSystem) (png : Path) (bytes : List UInt8) (source : String),
    fs.read png = .ok bytes
    → Png.read? bytes = some picture
    → storeHash fs png (Sha256.hexDigest source) = .ok after
    → storedHash after png = some (Sha256.hexDigest source)
      ∧ ∃ rewritten again,
          after.read png = .ok rewritten
          ∧ Png.read? rewritten = some again
          ∧ SameImage picture again

/-- A picture survives unless samples of its transparency were cut down. -/
theorem survivesStoring_of_not_cutsSamples {picture : Png.Picture}
    (whole : ¬ picture.head.CutsSamples)
    : SurvivesStoring picture := by
  intro fs after png bytes source file decoded stored
  have ended := keptWith_or_lost file decoded (digest_fits source) stored
  rw [if_neg whole] at ended
  obtain ⟨rewritten, again, read, redecoded, same, _⟩ := ended.shown
  exact ⟨ended.stored, rewritten, again, read, redecoded, same⟩

/-- The tools of a renderer, which make documents and images of sources: typesetting leaves the
document, which is no picture, and drawing leaves the image of a document that it finds. No tool
brings a hash, and drawing spares the document unless the image is to go there.
-/
structure Faithful (document : String → List UInt8) (image : String → Png.Picture)
    (renderer : Renderer) : Prop where
  typesets : Typesets document renderer.typeset
  opaqueDocument : ∀ source, Png.read? (document source) = none
  typesetKeeps : ∀ calls job fs, NoNewHash fs (renderer.typeset calls job fs).2
  rasterizeKeeps : ∀ calls job fs, NoNewHash fs (renderer.rasterize calls job fs).2
  draws
    : ∀ calls job fs after source,
        fs.read job.pdf = .ok (document source)
        → renderer.rasterize calls job fs = (.ok (), after)
        → ∃ bytes picture,
            after.read job.png = .ok bytes
            ∧ Png.read? bytes = some picture
            ∧ SameImage (image source) picture
  spares : Spares document renderer.rasterize

-----------------------------------------------------------------------------------------
-- Rendering
-----------------------------------------------------------------------------------------

section

variable {document : String → List UInt8} {image : String → Png.Picture} {renderer : Renderer}
  {baseDir png : Path} {source : String} {pdf : Option Path}

/-- The work in a scratch directory brings no hash, however it ends. -/
theorem Faithful.keeps_renderIn (faithful : Faithful document image renderer)
    (plain : hashIn? (Text.utf8 source) = none) (scratch : Path)
    : Keeps NoNewHash (renderIn scratch renderer baseDir source png pdf) := by
  have front : Keeps NoNewHash (renderIn scratch renderer baseDir source png none) :=
    .renderIn chains_noNewHash (fun _ _ filled => noNewHash_of_filled filled (.inl plain))
      (fun calls fs => faithful.typesetKeeps calls _ fs) (fun _ _ => noNewHash_of_frame)
      (fun calls fs => faithful.rasterizeKeeps calls _ fs)
  cases pdf with
  | none => exact front
  | some pdf =>
      rw [renderIn_some]
      refine .bind chains_noNewHash front fun _ => .perform chains_noNewHash _ ?_
      intro fs after copied
      obtain ⟨bytes, read, filled⟩ := FileSystem.filled_of_copy copied
      refine noNewHash_of_filled filled ?_
      split
      · exact .inl rfl
      · exact .inr ⟨_, read⟩

/-- Rendering brings no hash, however it ends. -/
theorem Faithful.keeps_render (faithful : Faithful document image renderer)
    (plain : hashIn? (Text.utf8 source) = none)
    : Keeps NoNewHash (render renderer baseDir source png pdf) := by
  intro bench
  rcases render_cases renderer baseDir source png pdf bench with
    ⟨error, ended⟩ | ⟨scratch, files, result, middle, _, made, inside, ended⟩
  · rw [ended]
    exact chains_noNewHash.refl _
  · have worked : NoNewHash files
        (renderIn (pathTo scratch) renderer baseDir source png pdf ⟨files, bench.calls⟩).2.files :=
      faithful.keeps_renderIn plain (pathTo scratch) ⟨files, bench.calls⟩
    rw [inside] at worked
    rw [ended]
    have grown := noNewHash_of_frame (FileSystem.frame_of_makeDirectory made)
    have dropped := noNewHash_of_within (FileSystem.within_drop middle.files scratch)
    exact chains_noNewHash.trans grown (chains_noNewHash.trans worked dropped)

/-- A picture at the path of the image is the image when that has been drawn. -/
theorem Faithful.sameImage_of_draw (faithful : Faithful document image renderer)
    {calls : List Call} (job : RasterJob) {fs after : FileSystem} {bytes : List UInt8}
    {picture : Png.Picture} (present : fs.read job.pdf = .ok (document source))
    (drawn : renderer.rasterize calls job fs = (.ok (), after))
    (read : after.read job.png = .ok bytes) (decoded : Png.read? bytes = some picture)
    : SameImage (image source) picture := by
  obtain ⟨found, shown, there, redecoded, same⟩ :=
    faithful.draws calls job fs after source present drawn
  obtain rfl : found = bytes := Except.ok.inj (there.symm.trans read)
  obtain rfl : shown = picture := Option.some.inj (redecoded.symm.trans decoded)
  exact same

/-- If the image has been drawn and a picture is found at its path after the document was copied,
that is the image.
-/
theorem Faithful.sameImage_of_renderIn (faithful : Faithful document image renderer)
    {scratch : Path} {bench after : Bench} {bytes : List UInt8} {picture : Png.Picture}
    (rendered : renderIn scratch renderer baseDir source png pdf bench = (.ok (), after))
    (read : after.files.read png = .ok bytes) (decoded : Png.read? bytes = some picture)
    : SameImage (image source) picture := by
  cases pdf with
  | none =>
      obtain ⟨calls, fs, found, drawn⟩ := exists_rasterize_of_renderIn rendered
      exact faithful.sameImage_of_draw ⟨scratch.child "file.pdf", png, scratch⟩
        (found document faithful.typesets) drawn read decoded
  | some pdf =>
      rw [renderIn_some] at rendered
      obtain ⟨_, middle, rendered, copied⟩ := bind_eq_ok_iff.mp rendered
      obtain ⟨calls, fs, found, drawn⟩ := exists_rasterize_of_renderIn rendered
      have present := found document faithful.typesets
      obtain ⟨octets, taken, filled⟩ :=
        FileSystem.filled_of_copy (onFiles_perform_eq_ok copied)
      by_cases apart : png.place middle.files.here = pdf.place middle.files.here
      · -- The document or nothing has taken the place of the image, and neither is a picture.
        have content := filled.eq_of_read apart read
        split at content
        next =>
            subst content
            cases decoded
        next away =>
            have spared := faithful.spares calls ⟨scratch.child "file.pdf", png, scratch⟩ fs
              middle.files source present drawn
              (fun same => away (apart.symm.trans same.symm))
            obtain rfl : octets = document source := Except.ok.inj (taken.symm.trans spared)
            rw [content, faithful.opaqueDocument] at decoded
            cases decoded
      · exact faithful.sameImage_of_draw ⟨scratch.child "file.pdf", png, scratch⟩ present drawn
          ((filled.read_iff apart bytes).mp read) decoded

/-- After rendering has succeeded, a picture at the path of the image is the image. -/
theorem Faithful.sameImage_of_render (faithful : Faithful document image renderer)
    {bench after : Bench} {bytes : List UInt8} {picture : Png.Picture}
    (rendered : render renderer baseDir source png pdf bench = (.ok (), after))
    (read : after.files.read png = .ok bytes) (decoded : Png.read? bytes = some picture)
    : SameImage (image source) picture := by
  obtain ⟨scratch, _, middle, _, _, inside, dropped⟩ := exists_renderIn_of_render rendered
  rw [dropped] at read
  exact faithful.sameImage_of_renderIn inside
    ((FileSystem.within_drop middle.files scratch).read read) decoded

/-- The hash of a source is stored after a request for it has succeeded. -/
theorem storedHash_of_perform {request : Request} {bench after : Bench} {outcome : Outcome}
    (faithful : Faithful document image request.renderer)
    (survives : ∀ picture, SameImage (image request.source) picture → SurvivesStoring picture)
    (performed : request.perform bench = (.ok outcome, after))
    : storedHash after.files request.png = some (Sha256.hexDigest request.source) := by
  rcases Request.perform_eq_ok performed with
    ⟨current, rfl⟩ | ⟨middle, files, drawn, stored, rfl⟩
  · simp only [isCurrent, Bool.and_eq_true, beq_iff_eq] at current
    exact current.2
  · obtain ⟨bytes, picture, _, read, decoded, _, _⟩ := storeHash_eq_ok stored
    have same := faithful.sameImage_of_render drawn read decoded
    exact (survives picture same middle.files files request.png bytes request.source read decoded
      stored).1

end

end Publication.Latex
