import Publication.Proofs.FileSystem.Names
import Publication.Proofs.Latex.Rendering
import Publication.Proofs.Naming.Claims

/-! Renderers that keep to their places. If tools write nothing but their results and what is in the
scratch directory, rendering changes nothing but the image and the document.
-/

namespace Publication.Latex

open Publication.FileSystem (Frame nowhere)
open Publication.Naming

-----------------------------------------------------------------------------------------
-- Scratch directories
-----------------------------------------------------------------------------------------

/-- A place where scratch directories are made. -/
def IsScratch (place : Location) : Prop := ∃ n, place = scratchRoot ++ [scratchName n]

theorem isScratch_freshScratch (fs : FileSystem) : IsScratch (freshScratch fs) := ⟨_, rfl⟩

/-- The name of a scratch directory is a name. -/
theorem isName_scratchName (n : Nat) : IsName (scratchName n) := by
  have whole : (scratchName n).toList = "pubgen-latex-".toList ++ (toString n).toList := by
    simp [scratchName]
  refine isName_of_length ?_ ?_
  · rw [whole, List.mem_append, not_or]
    exact ⟨by decide, not_mem_toString rfl⟩
  · rw [whole, List.length_append]
    exact Nat.lt_of_lt_of_le (by decide) (Nat.le_add_right _ _)

theorem dot_not_mem_scratchName (n : Nat) : '.' ∉ (scratchName n).toList := by
  have whole : (scratchName n).toList = "pubgen-latex-".toList ++ (toString n).toList := by
    simp [scratchName]
  rw [whole, List.mem_append, not_or]
  exact ⟨by decide, not_mem_toString rfl⟩

theorem text_pathTo (n : Nat)
    : (pathTo (scratchRoot ++ [scratchName n])).text.toList
      = "/tmp".toList ++ '/' :: (scratchName n).toList := by
  simp [pathTo, scratchRoot, String.intercalate_cons_cons]

/-- The path to a scratch directory leads there from everywhere. -/
theorem place_pathTo {scratch : Location} (proper : IsScratch scratch) (here : Location)
    : (pathTo scratch).place here = scratch := by
  obtain ⟨n, rfl⟩ := proper
  have start : (pathTo (scratchRoot ++ [scratchName n])).origin here = [] := by
    simp [Path.origin, Path.isAbsolute, text_pathTo]
  rw [place_of_separator (isName_scratchName n) (text_pathTo n), start]
  rfl

theorem IsScratch.ne_nil {scratch : Location} (proper : IsScratch scratch) : scratch ≠ [] := by
  rintro rfl
  obtain ⟨n, same⟩ := proper
  cases same

/-- A file whose name has a dot is in no scratch directory that is gone, if its directory is there.
-/
theorem IsScratch.not_below {scratch dir : Location} {file : String} {fs : FileSystem}
    (proper : IsScratch scratch) (dotted : '.' ∈ file.toList)
    (gone : ∀ place, scratch <+: place → fs.entry? place = none)
    (directory : fs.entry? dir = some .directory)
    : ¬ scratch <+: dir ++ [file] := by
  intro inside
  rcases List.prefix_concat_iff.mp inside with same | below
  · obtain ⟨n, rfl⟩ := proper
    have last : scratchName n = file := (List.append_singleton_inj.mp same).2
    exact absurd (last ▸ dotted) (dot_not_mem_scratchName n)
  · rw [gone dir below] at directory
    cases directory

-----------------------------------------------------------------------------------------
-- Tools that keep to their places
-----------------------------------------------------------------------------------------

/-- Tools that write nothing but the image that is asked for and what is in the directories for
their output.
-/
structure Confined (renderer : Renderer) : Prop where
  typeset
    : ∀ calls job fs,
        Frame (job.outputDir.place fs.here <+: ·) fs (renderer.typeset calls job fs).2
  rasterize
    : ∀ calls job fs,
        Frame (fun place => job.logDir.place fs.here <+: place ∨ place = job.png.place fs.here)
          fs (renderer.rasterize calls job fs).2

/-- What rendering may change: what is in the scratch directory, the image, and the document if
rendering succeeds.
-/
def Reached (scratch : Location) (png : Path) (pdf : Option Path) (result : Except RenderError Unit)
    (here place : Location) : Prop :=
  scratch <+: place
  ∨ place = png.place here
  ∨ (result = .ok () ∧ ∃ path ∈ pdf, place = path.place here)

/-- What is reached without a document is reached in any case. -/
theorem Reached.of_none {scratch : Location} {png : Path} {result other : Except RenderError Unit}
    {here place : Location} (reached : Reached scratch png none result here place)
    (pdf : Option Path)
    : Reached scratch png pdf other here place := by
  rcases reached with inside | image | ⟨_, _, absent, _⟩
  · exact .inl inside
  · exact .inr (.inl image)
  · cases absent

/-- Changes in a region, as long as the current directory is a given one. -/
def FrameFrom (here : Location) (region : Location → Prop) (before after : FileSystem) : Prop :=
  before.here = here → Frame region before after

/-- Changes in a region chain, since they do not change the current directory. -/
theorem chains_frameFrom (here : Location) (region : Location → Prop)
    : Chains (FrameFrom here region) := by
  refine ⟨fun fs _ => .refl region fs, ?_⟩
  intro first second third earlier later start
  have head := earlier start
  exact head.trans (later (head.here.trans start))

section

variable {renderer : Renderer} {baseDir png : Path} {source : String} {scratch : Location}
  {pdf : Option Path} {bench after : Bench} {result : Except RenderError Unit}

/-- Work in a scratch directory changes what is in it and the image, if no document is asked for. -/
theorem Confined.frame_renderIn_none (confined : Confined renderer) (proper : IsScratch scratch)
    (worked : renderIn (pathTo scratch) renderer baseDir source png none bench = (result, after))
    : Frame (Reached scratch png none result bench.files.here) bench.files after.files := by
  have kept : Keeps (FrameFrom bench.files.here (Reached scratch png none result bench.files.here))
      (renderIn (pathTo scratch) renderer baseDir source png none) := by
    refine .renderIn (chains_frameFrom _ _) ?_ ?_ ?_ ?_
    · intro fs after filled _
      refine filled.frame.mono fun place same => .inl ?_
      rw [show place = _ from same, place_child _ (by decide), place_pathTo proper]
      exact List.prefix_append _ _
    · intro calls fs _
      refine (confined.typeset calls _ fs).mono fun place inside => .inl ?_
      rwa [place_pathTo proper] at inside
    · intro fs after frame _
      exact frame.mono fun _ inside => inside.elim
    · intro calls fs start
      refine (confined.rasterize calls _ fs).mono fun place inside => ?_
      rw [place_pathTo proper, start] at inside
      exact inside.imp_right .inl
  have frame := kept bench rfl
  rwa [worked] at frame

/-- Work in a scratch directory changes what is in it, the image, and the document if it succeeds.
-/
theorem Confined.frame_renderIn (confined : Confined renderer) (proper : IsScratch scratch)
    (worked : renderIn (pathTo scratch) renderer baseDir source png pdf bench = (result, after))
    : Frame (Reached scratch png pdf result bench.files.here) bench.files after.files := by
  cases pdf with
  | none => exact confined.frame_renderIn_none proper worked
  | some path =>
      rw [renderIn_some] at worked
      rcases done : renderIn (pathTo scratch) renderer baseDir source png none bench
        with ⟨error | _, before⟩
      · rw [bind_of_error done] at worked
        obtain ⟨_, rfl⟩ := Prod.mk.inj worked
        exact (confined.frame_renderIn_none proper done).mono fun _ reached => reached.of_none _
      · have front := confined.frame_renderIn_none proper done
        rw [bind_of_ok done] at worked
        simp only [onFiles, FileSystem.perform] at worked
        cases copied : before.files.copy ((pathTo scratch).child "file.pdf") path with
        | error e =>
            rw [copied] at worked
            obtain ⟨_, rfl⟩ := Prod.mk.inj worked
            exact front.mono fun _ reached => reached.of_none _
        | ok copy =>
            rw [copied] at worked
            obtain ⟨rfl, rfl⟩ := Prod.mk.inj worked
            obtain ⟨_, _, filled⟩ := FileSystem.filled_of_copy copied
            refine (front.mono fun _ reached => reached.of_none _).trans
              (filled.frame.mono fun place same => .inr (.inr ⟨rfl, path, rfl, ?_⟩))
            rw [show place = _ from same, front.here]

/-- Rendering changes what is in a scratch directory, the image, and the document if it succeeds. If
it succeeds, nothing is left of the scratch directory.
-/
theorem Confined.frame_render (confined : Confined renderer)
    (rendered : render renderer baseDir source png pdf bench = (result, after))
    : ∃ scratch,
        IsScratch scratch
        ∧ (result = .ok () → ∀ place, scratch <+: place → after.files.entry? place = none)
        ∧ Frame (Reached scratch png pdf result bench.files.here) bench.files after.files := by
  rcases render_cases renderer baseDir source png pdf bench with
    ⟨error, ended⟩ | ⟨scratch, files, ending, middle, named, made, inside, ended⟩
  · rw [ended] at rendered
    obtain ⟨rfl, rfl⟩ := Prod.mk.inj rendered
    exact ⟨_, isScratch_freshScratch bench.files, fun failed => (by cases failed), .refl _ _⟩
  · rw [ended] at rendered
    obtain ⟨rfl, rfl⟩ := Prod.mk.inj rendered
    have proper : IsScratch scratch := by
      rw [named]
      exact isScratch_freshScratch bench.files
    have first := FileSystem.frame_of_makeDirectory made
    have worked := confined.frame_renderIn proper inside
    have dropped := FileSystem.frame_drop middle.files scratch
    rw [first.here] at worked
    exact ⟨scratch, proper,
      fun _ _ => FileSystem.entry?_drop_below middle.files proper.ne_nil,
      ((first.mono fun _ inside => inside.elim).trans worked).trans
        (dropped.mono fun _ inside => .inl inside)⟩

end

end Publication.Latex
