import Publication.Proofs.Article.Includes

/-! Where an article is published. Its files lie beside the directory that has its name, and all
that is copied lies in that directory, whatever its references and includes lead to; no other file
is touched, however the publishing ends.
-/

namespace Publication

open Publication.Document
open Publication.FileSystem (Gains)
open Publication.Latex (Bench Renderer bind_of_error bind_of_ok eq_ok_of_toOption sketcher)

-----------------------------------------------------------------------------------------
-- Work that puts files in a region
-----------------------------------------------------------------------------------------

/-- From a current directory, work puts files in a region at most and leaves places proper, however
it ends.
-/
def PutsIn {ε α : Type} (here : Location) (region : Location → Prop)
    (work : ExceptT ε (StateM FileSystem) α)
    : Prop :=
  ∀ fs : FileSystem, fs.here = here → fs.Proper →
    Gains region fs (work fs).2 ∧ (work fs).2.Proper

section

variable {ε ε' α β : Type} {here : Location} {region : Location → Prop} {fs : FileSystem}

theorem PutsIn.pure (a : α) : PutsIn here region (pure a : ExceptT ε (StateM FileSystem) α) :=
  fun fs _ proper => ⟨.refl region fs, proper⟩

/-- What fails at once puts nothing. -/
theorem PutsIn.throw (e : ε)
    : PutsIn here region (throw e : ExceptT ε (StateM FileSystem) α) :=
  fun fs _ proper => ⟨.refl region fs, proper⟩

/-- A sequence puts files where its steps do. -/
theorem PutsIn.bind {first : ExceptT ε (StateM FileSystem) α}
    {later : α → ExceptT ε (StateM FileSystem) β} (earlier : PutsIn here region first)
    (next : ∀ a, PutsIn here region (later a))
    : PutsIn here region (first >>= later) := by
  intro fs same proper
  have head := earlier fs same proper
  rcases done : first fs with ⟨e | a, middle⟩
  · rw [done] at head
    rw [bind_of_error done]
    exact head
  · rw [done] at head
    rw [bind_of_ok done]
    obtain ⟨gains, kept⟩ := next a middle (head.1.grows.here.trans same) head.2
    exact ⟨head.1.trans gains, kept⟩

theorem PutsIn.adapt (convert : ε → ε') {work : ExceptT ε (StateM FileSystem) α}
    (puts : PutsIn here region work)
    : PutsIn here region (ExceptT.adapt convert work) :=
  puts

theorem PutsIn.makeDirectories (path : Path)
    : PutsIn here region (FileSystem.makeDirectories path) :=
  fun fs _ proper => ⟨FileSystem.gains_makeDirectories region path fs, proper.makeDirectories path⟩

/-- An operation that puts a file where a path leads. -/
theorem PutsIn.perform {op : FileSystem → Except FileError FileSystem} {path : Path}
    (inside : region (path.place here))
    (fills : ∀ fs after, op fs = .ok after → ∃ bytes, fs.Filled path bytes after)
    : PutsIn here region (FileSystem.perform op) := by
  intro fs same proper
  simp only [FileSystem.perform]
  cases done : op fs with
  | error e => exact ⟨.refl region fs, proper⟩
  | ok after =>
      obtain ⟨bytes, filled⟩ := fills fs after done
      refine ⟨filled.gains.mono ?_, proper.filled filled⟩
      rintro place rfl
      exact same.symm ▸ inside

/-- A copy puts a file at its goal at most. -/
theorem PutsIn.copyInto {source goal : Path} (inside : region (goal.place here))
    : PutsIn here region (copyInto source goal) := by
  have copied : PutsIn here region (FileSystem.perform fun fs => fs.copy source goal) :=
    .perform inside fun fs after done =>
      ⟨_, (FileSystem.filled_of_copy done).choose_spec.2⟩
  cases outer : goal.parent? with
  | some dir =>
      simp only [Publication.copyInto, outer]
      exact .bind (.makeDirectories dir) fun _ => copied
  | none =>
      simp only [Publication.copyInto, outer]
      exact .bind (.pure ()) fun _ => copied

/-- A change of the files puts them where it does. -/
theorem PutsIn.change {change : FileSystem → α × FileSystem}
    (puts
      : ∀ fs : FileSystem, fs.here = here → fs.Proper →
          Gains region fs (change fs).2 ∧ (change fs).2.Proper)
    : PutsIn here region (modifyGet change : Publishing α) :=
  puts

theorem gains_attempt (source : Path) {goal : Path} (inside : region (goal.place here))
    (same : fs.here = here) (proper : fs.Proper)
    : Gains region fs (attempt source goal fs).2 ∧ (attempt source goal fs).2.Proper := by
  have whole : (attempt source goal fs).2 = (copyInto source goal fs).2 := by
    simp only [attempt]
    split <;> simp_all
  rw [whole]
  exact PutsIn.copyInto inside fs same proper

/-- Texts are put at their paths, by induction on the texts. -/
theorem PutsIn.writeTexts {files : List (Path × String)}
    (inside : ∀ file ∈ files, region (file.1.place here))
    : PutsIn here region (writeTexts files) := by
  induction files with
  | nil => exact .pure ()
  | cons file rest ih =>
      obtain ⟨own, others⟩ := List.forall_mem_cons.mp inside
      exact .bind (.perform own fun fs after done => ⟨_, FileSystem.filled_of_write done⟩)
        fun _ => ih others

/-- Resources are put at their goals, by induction on them; an essential one that fails ends the
work.
-/
theorem PutsIn.copyResources {dir : Path} {resources : List Resource}
    (inside : ∀ r ∈ resources, region (r.goal dir here)) (published : Published)
    : PutsIn here region (copyResources dir resources published) := by
  induction resources generalizing published with
  | nil => exact .pure published
  | cons r rest ih =>
      obtain ⟨own, others⟩ := List.forall_mem_cons.mp inside
      refine .bind (.change fun _ => gains_attempt r.source own) fun failure => ?_
      cases failure with
      | none => exact ih others _
      | some e =>
          simp only
          split
          · exact .throw _
          · exact ih others _

/-- Copies put files at their goals at most, by induction on them. -/
theorem gains_copyAll {copies : List (Path × Path)} (same : fs.here = here)
    (inside : ∀ copy ∈ copies, region (copy.2.place here)) (proper : fs.Proper)
    : Gains region fs (copyAll copies fs) := by
  induction copies generalizing fs with
  | nil => exact .refl region fs
  | cons copy rest ih =>
      obtain ⟨own, others⟩ := List.forall_mem_cons.mp inside
      obtain ⟨first, kept⟩ := gains_attempt copy.1 own same proper
      exact first.trans (ih (first.grows.here.trans same) others kept)

/-- Includes are put below the directory that they are copied into. -/
theorem PutsIn.copyIncludes {dir : Path} {includes : List Path}
    (inside : ∀ name names, region (dir.place here ++ name :: names)) (published : Published)
    : PutsIn here region
        (modifyGet (copyIncludes dir includes published) : Publishing Published) := by
  refine .change fun fs same proper => ?_
  have turns := proper.inclusions dir includes
  have below : ∀ copy ∈ includedCopies dir (inclusions dir includes fs),
      region (copy.2.place here) := by
    intro copy member
    obtain ⟨turn, among, inner⟩ := List.mem_flatMap.mp member
    have goal := List.mem_map_of_mem (f := fun copy => copy.2.place here) inner
    rw [Inclusion.places_copies (turns turn among)] at goal
    cases known : turn.2 with
    | nothing =>
        rw [known] at goal
        cases goal
    | file name =>
        rw [known] at goal
        exact List.mem_singleton.mp goal ▸ inside name []
    | folder name files =>
        rw [known] at goal
        obtain ⟨names, _, led⟩ := List.mem_map.mp goal
        exact led ▸ inside name names
  have gains := gains_copyAll same below proper
  have kept := proper.copyAll (includedCopies dir (inclusions dir includes fs))
  rw [copyIncludes_eq]
  exact ⟨gains, kept⟩

end

-----------------------------------------------------------------------------------------
-- What belongs to an output
-----------------------------------------------------------------------------------------

/-- The places that an output takes up: those of its files, and all that are strictly below the
directory with its name.
-/
def Output.Owns (output : Output) (here place : Location) : Prop :=
  place ∈ [".html", ".toc", ".meta"].map (output.dir.place here ++ [output.name ++ ·])
  ∨ ∃ first rest, place = output.dir.place here ++ output.name :: first :: rest

section

variable {output : Output} {article : Article} {here : Location}

/-- The files of an article have the name of its output and an ending. -/
theorem Article.owns_files (named : IsName output.name)
    : ∀ file ∈ article.files output, output.Owns here (file.1.place here) := by
  have filled := List.length_pos_iff.mpr named.2.1
  have proper {ending : String} (plain : '/' ∉ ending.toList) (long : 2 < ending.toList.length)
      : IsName (output.name ++ ending) := by
    refine isName_of_length ?_ ?_
    · rw [String.toList_append, List.mem_append, not_or]
      exact ⟨named.1, plain⟩
    · rw [String.toList_append, List.length_append]
      omega
  simp only [Article.files, List.forall_mem_cons]
  refine ⟨.inl ?_, .inl ?_, .inl ?_, List.forall_mem_nil _⟩
  · rw [Output.html, place_child output.dir (proper (by decide) (by decide))]
    exact List.mem_cons_self
  · rw [Output.contents, place_child output.dir (proper (by decide) (by decide))]
    exact List.mem_cons_of_mem _ List.mem_cons_self
  · rw [Output.record, place_child output.dir (proper (by decide) (by decide))]
    exact List.mem_cons_of_mem _ (List.mem_cons_of_mem _ List.mem_cons_self)

/-- However publishing ends, it puts files at places of the output only, if that is where the
resources go.
-/
theorem PutsIn.publish (named : IsName output.name)
    (inside : ∀ r ∈ article.resources, output.Owns here (r.goal output.dir here))
    : PutsIn here (output.Owns here) (article.publish output) := by
  refine .bind (.adapt _ ?_) fun _ => ?_
  · refine .bind (.makeDirectories output.dir) fun _ => ?_
    exact .bind (.writeTexts (Article.owns_files named)) fun _ => .makeDirectories _
  · refine .bind (.copyResources inside _) fun published => .copyIncludes ?_ published
    intro name names
    rw [Output.resources, place_child output.dir named, List.append_assoc]
    exact .inr ⟨name, names, rfl⟩

end

/-- A compiled article is published inside its output, whatever the manuscript refers to or includes
and however the publishing ends: files are put nowhere but at the three files of the output and
strictly below the directory with its name, and all other files stay as they are. Each resource goes
directly into that directory.
-/
theorem publish_inside_output [Transliteration] [Image.Scaler] {renderer : Renderer}
    {config : Config} {manuscript : Manuscript} {bench done : Bench} {article : Article}
    (compiled : compile renderer config manuscript bench = (.ok article, done))
    (named : IsName manuscript.name) (dir : Path) {fs : FileSystem} (proper : fs.Proper)
    : let output : Output := ⟨dir, manuscript.name⟩
      Gains (output.Owns fs.here) fs (article.publish output fs).2
      ∧ ∀ r ∈ article.resources,
          ∃ name,
            IsName name
            ∧ r.goal dir fs.here = dir.place fs.here ++ [manuscript.name, name] := by
  have goals : ∀ r ∈ article.resources,
      ∃ name,
        IsName name ∧ r.goal dir fs.here = dir.place fs.here ++ [manuscript.name, name] := by
    intro r member
    obtain ⟨name, own, target⟩ := exists_name_of_compile compiled member
    have filled : manuscript.name ≠ "" := fun empty => named.2.1 (by rw [empty]; rfl)
    refine ⟨name, own, ?_⟩
    rw [Resource.goal, target, place_child_separated dir filled own, place_child dir named,
      List.append_assoc]
    rfl
  refine ⟨(PutsIn.publish named ?_ fs rfl proper).1, goals⟩
  intro r member
  obtain ⟨name, _, goal⟩ := goals r member
  exact .inr ⟨name, [], goal⟩

-----------------------------------------------------------------------------------------
-- References that lead out of the manuscript's directory
-----------------------------------------------------------------------------------------

section

open scoped Publication.StandIns

/-- A manuscript whose references and includes lead to other directories, or to no name at all. -/
def strayNote : Manuscript :=
  ⟨"doc", ⟨"in"⟩, "include: ../b\n\n![a](file://../b/plot.png) ![b](file:///b/..)\n"⟩

theorem exists_compile_stray
    : ∃ article done,
        compile sketcher {} strayNote ⟨plotFiles, []⟩ = (.ok article, done)
        ∧ article.resources.map (·.target) = ["doc/plot.png", "doc/resource"] := by
  have given : (compile sketcher {} strayNote ⟨plotFiles, []⟩).1.toOption.map
      (fun article => article.resources.map (·.target))
      = some ["doc/plot.png", "doc/resource"] := by
    decide +kernel
  obtain ⟨article, compiled, targets⟩ := Option.map_eq_some_iff.mp given
  exact ⟨article, _, eq_ok_of_toOption compiled, targets⟩

/-- All that it is published as lies inside its output, and what it refers to stays. -/
theorem publish_stray_inside_output
    : IsName strayNote.name
      ∧ plotFiles.Proper
      ∧ ∃ article done,
          compile sketcher {} strayNote ⟨plotFiles, []⟩ = (.ok article, done)
          ∧ article.resources.map (·.target) = ["doc/plot.png", "doc/resource"]
          ∧ (article.publish ⟨⟨"."⟩, "doc"⟩ plotFiles).2.Has ["b", "plot.png"] [2] := by
  have named : IsName strayNote.name := by decide
  obtain ⟨article, done, compiled, targets⟩ := exists_compile_stray
  obtain ⟨gains, _⟩ := publish_inside_output compiled named ⟨"."⟩ proper_plotFiles
  refine ⟨named, proper_plotFiles, article, done, compiled, targets, ?_⟩
  refine (gains.has_iff ?_ [2]).mpr ⟨false, rfl⟩
  rintro (file | ⟨first, rest, below⟩)
  · revert file
    decide
  · exact absurd (List.cons.inj below).1 (by decide)

end

end Publication
