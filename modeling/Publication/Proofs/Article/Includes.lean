import Publication.Proofs.Article.Turns

/-! What is copied for includes. An included file is published under its name, and an included
directory with the files below it under its own, whatever has these names already; so the copies of
an article go to different places only if the includes and the resources keep apart.
-/

namespace Publication

open Publication.Document
open Publication.Latex (Bench Renderer bind_eq_ok_iff eq_ok_of_toOption pure_eq_ok_iff sketcher)

-----------------------------------------------------------------------------------------
-- Files that stay proper
-----------------------------------------------------------------------------------------

section

variable {fs after : FileSystem}

theorem FileSystem.Proper.attempt (proper : fs.Proper) (source goal : Path)
    : (attempt source goal fs).2.Proper := by
  have copied {middle : FileSystem} (before : middle.Proper)
      : (FileSystem.perform (fun fs => fs.copy source goal) middle).2.Proper := by
    simp only [FileSystem.perform]
    split
    next made =>
        obtain ⟨_, _, filled⟩ := FileSystem.filled_of_copy made
        exact before.filled filled
    next => exact before
  have whole : (Publication.attempt source goal fs).2 = (copyInto source goal fs).2 := by
    simp only [Publication.attempt]
    split
    next same => rw [same]
    next same => rw [same]
  rw [whole]
  cases inside : goal.parent? with
  | none =>
      simp only [copyInto, inside]
      exact copied proper
  | some dir =>
      have before := proper.makeDirectories dir
      simp only [copyInto, inside, bind, ExceptT.bind, ExceptT.mk, StateT.bind]
      rcases made : FileSystem.makeDirectories dir fs with ⟨failed | _, middle⟩
      · rw [made] at before
        exact before
      · rw [made] at before
        exact copied before

/-- Copies keep places proper, by induction on them. -/
theorem FileSystem.Proper.copyAll (proper : fs.Proper) (copies : List (Path × Path))
    : (copyAll copies fs).Proper := by
  induction copies generalizing fs with
  | nil => exact proper
  | cons copy rest ih => exact ih (proper.attempt copy.1 copy.2)

/-- Texts that are written keep places proper, by induction on them. -/
theorem FileSystem.Proper.writeTexts (proper : fs.Proper) {files : List (Path × String)}
    (written : writeTexts files fs = (.ok (), after))
    : after.Proper := by
  induction files generalizing fs with
  | nil =>
      obtain ⟨_, rfl⟩ := pure_eq_ok_iff.mp written
      exact proper
  | cons file rest ih =>
      obtain ⟨_, middle, first, others⟩ := bind_eq_ok_iff.mp written
      have written := FileSystem.perform_eq_ok_iff.mp first
      exact ih (proper.filled (FileSystem.filled_of_write written)) others

/-- Names that an include has, and the names below it. -/
def Inclusion.Proper : Inclusion → Prop
  | .file name => IsName name
  | .folder name files =>
      IsName name ∧ files.Nodup ∧ ∀ names ∈ files, names ≠ [] ∧ ∀ inner ∈ names, IsName inner
  | .nothing => True

theorem FileSystem.Proper.inclusion (proper : fs.Proper) (path : Path)
    : (fs.inclusion path).Proper := by
  unfold FileSystem.inclusion
  split
  next => trivial
  next name named =>
      have own := (Path.place_of_fileName? named).1
      split
      · exact own
      · split
        · exact ⟨own, FileSystem.nodup_filesFrom proper path,
            fun names member => FileSystem.names_of_mem_filesFrom proper member⟩
        · trivial

/-- What includes are is proper, by induction on them. -/
theorem FileSystem.Proper.inclusions (proper : fs.Proper) (dir : Path) (includes : List Path)
    : ∀ turn ∈ inclusions dir includes fs, turn.2.Proper := by
  induction includes generalizing fs with
  | nil => exact List.forall_mem_nil _
  | cons path rest ih =>
      exact List.forall_mem_cons.mpr ⟨proper.inclusion path, ih (proper.copyAll _)⟩

end

-----------------------------------------------------------------------------------------
-- Goals
-----------------------------------------------------------------------------------------

/-- The places that an include is copied to, in a directory. -/
def Inclusion.goals (outer : Location) : Inclusion → List Location
  | .file name => [outer ++ [name]]
  | .folder name files => files.map fun names => outer ++ name :: names
  | .nothing => []

/-- Whether nothing of one include is copied to where something of the other is. -/
def Inclusion.Apart : Inclusion → Inclusion → Prop
  | .file name, .file other => name ≠ other
  | .folder name files, .folder other more => name = other → ∀ names ∈ files, names ∉ more
  | _, _ => True

section

variable {first second : Inclusion}

theorem Inclusion.places_copies (proper : first.Proper) (dir path : Path) (here : Location)
    : (first.copies dir path).map (fun copy => copy.2.place here)
      = first.goals (dir.place here) := by
  cases first with
  | nothing => rfl
  | file name => exact congrArg (fun place => [place]) (place_child dir proper here)
  | folder name files =>
      obtain ⟨own, _, inner⟩ := proper
      rw [copies, goals, List.map_map]
      refine List.map_congr_left fun names member => ?_
      obtain ⟨filled, named⟩ := inner names member
      rw [Function.comp_apply, place_child_names _ filled named, place_child dir own,
        List.append_assoc]
      rfl

theorem Inclusion.nodup_goals (proper : first.Proper) (outer : Location)
    : (first.goals outer).Nodup := by
  cases first with
  | nothing => exact List.nodup_nil
  | file name => exact List.pairwise_singleton _ _
  | folder name files =>
      rw [goals, List.Nodup, List.pairwise_map]
      refine proper.2.1.imp fun apart same => apart ?_
      exact (List.cons.inj (List.append_cancel_left same)).2

/-- A file in a directory is not one of a directory in it. -/
theorem append_singleton_ne {outer : Location} {name other : String} {names : Location}
    (filled : names ≠ [])
    : outer ++ [name] ≠ outer ++ other :: names := by
  intro same
  exact filled (List.cons.inj (List.append_cancel_left same)).2.symm

/-- Two includes have no goal in common exactly if they are apart. -/
theorem Inclusion.disjoint_goals_iff (one : first.Proper) (two : second.Proper) (outer : Location)
    : (∀ x ∈ first.goals outer, ∀ y ∈ second.goals outer, x ≠ y) ↔ first.Apart second := by
  cases first with
  | nothing => exact ⟨fun _ => trivial, fun _ => List.forall_mem_nil _⟩
  | file name =>
      cases second with
      | nothing => exact ⟨fun _ => trivial, fun _ _ _ => List.forall_mem_nil _⟩
      | file other => simp [goals, Apart]
      | folder other files =>
          refine ⟨fun _ => trivial, fun _ x among y below => ?_⟩
          obtain rfl := List.mem_singleton.mp among
          obtain ⟨names, member, rfl⟩ := List.mem_map.mp below
          exact append_singleton_ne (two.2.2 names member).1
  | folder name files =>
      cases second with
      | nothing => exact ⟨fun _ => trivial, fun _ _ _ => List.forall_mem_nil _⟩
      | file other =>
          refine ⟨fun _ => trivial, fun _ x below y among => ?_⟩
          obtain rfl := List.mem_singleton.mp among
          obtain ⟨names, member, rfl⟩ := List.mem_map.mp below
          exact (append_singleton_ne (one.2.2 names member).1).symm
      | folder other more =>
          constructor
          · rintro disjoint rfl names member among
            exact disjoint _ (List.mem_map_of_mem member) _ (List.mem_map_of_mem among) rfl
          · intro apart x below y within same
            obtain ⟨names, member, rfl⟩ := List.mem_map.mp below
            obtain ⟨others, among, rfl⟩ := List.mem_map.mp within
            obtain ⟨rfl, rfl⟩ := List.cons.inj (List.append_cancel_left same)
            exact apart rfl names member among

/-- Includes are copied to different places exactly if they are pairwise apart. -/
theorem nodup_goals_iff {turns : List Inclusion} (proper : ∀ turn ∈ turns, turn.Proper)
    (outer : Location)
    : (turns.flatMap (Inclusion.goals outer)).Nodup ↔ turns.Pairwise Inclusion.Apart := by
  rw [List.Nodup, List.pairwise_flatMap]
  constructor
  · rintro ⟨_, apart⟩
    exact apart.imp_of_mem fun one other disjoint =>
      (Inclusion.disjoint_goals_iff (proper _ one) (proper _ other) outer).mp disjoint
  · intro apart
    refine ⟨fun turn member => Inclusion.nodup_goals (proper turn member) outer, ?_⟩
    exact apart.imp_of_mem fun one other disjoint =>
      (Inclusion.disjoint_goals_iff (proper _ one) (proper _ other) outer).mpr disjoint

end

-----------------------------------------------------------------------------------------
-- Resources
-----------------------------------------------------------------------------------------

/-- A name in a directory leads into it, or into the root if nothing names the directory. -/
theorem exists_outer_place (dir : Path) (outer : String) (here : Location)
    : ∃ place,
        (place = [] ∨ place = (dir.child outer).place here)
        ∧ ∀ name, IsName name →
            (dir.child (outer ++ "/" ++ name)).place here = place ++ [name] := by
  by_cases filled : outer = ""
  · subst filled
    refine ⟨[], .inl rfl, fun name proper => ?_⟩
    have text : ("" ++ "/" ++ name).toList = [] ++ '/' :: name.toList := by simp
    have absolute : (Path.mk ("" ++ "/" ++ name)).isAbsolute = true := by
      simp [Path.isAbsolute]
    have alone : dir.child ("" ++ "/" ++ name) = ⟨"" ++ "/" ++ name⟩ := by
      simp only [Path.child, Path.join, absolute, if_true]
    rw [alone, place_of_separator proper text, Path.origin, absolute]
    rfl
  · exact ⟨_, .inr rfl, fun name proper => place_child_separated dir filled proper here⟩

section

variable [Transliteration] [Image.Scaler] {renderer : Renderer} {config : Config}
  {manuscript : Manuscript} {bench done : Bench} {article : Article}

/-- The resources of an article are published under names in the directory that its name names. -/
theorem exists_name_of_compile
    (compiled : compile renderer config manuscript bench = (.ok article, done)) {r : Resource}
    (member : r ∈ article.resources)
    : ∃ name, IsName name ∧ r.target = manuscript.name ++ "/" ++ name := by
  obtain ⟨manifest, sound, directory, entries⟩ := exists_manifest_of_compile compiled
  have target := List.mem_map_of_mem (f := (·.target)) (entries ▸ member)
  rw [sound.targets, directory] at target
  obtain ⟨name, among, same⟩ := List.mem_map.mp target
  exact ⟨name, sound.proper name (List.mem_reverse.mp among), same.symm⟩

/-- A resource is never copied to where a file of an included directory is. -/
theorem goal_ne_of_folder
    (compiled : compile renderer config manuscript bench = (.ok article, done)) {r : Resource}
    (member : r ∈ article.resources) (dir : Path) (here : Location) {name : String}
    {names : Location} (filled : names ≠ [])
    : r.goal dir here ≠ (dir.child manuscript.name).place here ++ name :: names := by
  obtain ⟨own, proper, target⟩ := exists_name_of_compile compiled member
  obtain ⟨place, known, leads⟩ := exists_outer_place dir manuscript.name here
  rw [Resource.goal, target, leads own proper]
  rcases known with rfl | rfl
  · intro same
    have length := congrArg List.length same
    have long := List.length_pos_iff.mpr filled
    simp only [List.length_append, List.length_cons, List.length_nil] at length
    omega
  · exact append_singleton_ne filled

/-- Resources and includes go to different places exactly if no included file goes where a resource
does.
-/
theorem disjoint_resources_iff
    (compiled : compile renderer config manuscript bench = (.ok article, done)) (dir : Path)
    (here : Location) {turns : List Inclusion} (proper : ∀ turn ∈ turns, turn.Proper)
    : (∀ x ∈ article.resources.map (·.goal dir here),
          ∀ y ∈ turns.flatMap (Inclusion.goals ((dir.child manuscript.name).place here)), x ≠ y)
      ↔ ∀ r ∈ article.resources, ∀ name, .file name ∈ turns →
          r.goal dir here ≠ (dir.child manuscript.name).place here ++ [name] := by
  constructor
  · intro apart r member name among
    refine apart _ (List.mem_map_of_mem member) _ ?_
    exact List.mem_flatMap.mpr ⟨_, among, List.mem_singleton.mpr rfl⟩
  · intro apart x below y within
    obtain ⟨r, member, rfl⟩ := List.mem_map.mp below
    obtain ⟨turn, among, inside⟩ := List.mem_flatMap.mp within
    cases turn with
    | nothing => cases inside
    | file name =>
        obtain rfl := List.mem_singleton.mp inside
        exact apart r member name among
    | folder name files =>
        obtain ⟨names, listed, rfl⟩ := List.mem_map.mp inside
        exact goal_ne_of_folder compiled member dir here ((proper _ among).2.2 names listed).1

end

-----------------------------------------------------------------------------------------
-- Articles with includes
-----------------------------------------------------------------------------------------

/-- What is done before the copies: the files of the article are written. -/
def Article.prepare (article : Article) (output : Output) : FileSystem.Task Unit := do
  FileSystem.makeDirectories output.dir
  writeTexts (article.files output)
  FileSystem.makeDirectories output.resources

/-- The files before the first copy. -/
def Article.prepared (article : Article) (output : Output) (fs : FileSystem) : FileSystem :=
  (article.prepare output fs).2

/-- What the includes of an article are, after its resources are copied. -/
def Article.turns (article : Article) (output : Output) (fs : FileSystem)
    : List (Path × Inclusion) :=
  inclusions output.resources article.includes
    (copyAll (resourceCopies output.dir article.resources) (article.prepared output fs))

/-- The copies of an article in order: from where, and to where. -/
def Article.copies (article : Article) (output : Output) (fs : FileSystem) : List (Path × Path) :=
  resourceCopies output.dir article.resources
    ++ includedCopies output.resources (article.turns output fs)

/-- An article is published by its copies, after its files are written. -/
theorem Article.copyAll_of_publish {article : Article} {output : Output} {fs after : FileSystem}
    {last : Published} (proper : fs.Proper)
    (published : article.publish output fs = (.ok last, after))
    : (article.prepared output fs).Proper
      ∧ after = copyAll (article.copies output fs) (article.prepared output fs) := by
  obtain ⟨outer, middle, written, copied, behind, first, wrote, second, done, included⟩ :=
    Article.exists_stages_of_publish published
  have whole : article.prepared output fs = written := by
    have stages : article.prepare output fs = (.ok (), written) :=
      bind_eq_ok_iff.mpr ⟨_, _, first, bind_eq_ok_iff.mpr ⟨_, _, wrote, second⟩⟩
    rw [Article.prepared, stages]
  have begun := proper.makeDirectories output.dir
  rw [first] at begun
  have ready := (begun.writeTexts wrote).makeDirectories output.resources
  rw [second] at ready
  have rest := congrArg Prod.snd (copyIncludes_eq output.resources article.includes copied behind)
  rw [included, copyAll_of_copyResources done, ← whole] at rest
  refine ⟨whole ▸ ready, ?_⟩
  rw [Article.copies, copyAll_append]
  exact rest

/-- Where an article is published, all its copies go to different places exactly if its includes are
pairwise apart and no included file goes where a resource does.
-/
theorem nodup_copies_iff [Transliteration] [Image.Scaler] {renderer : Renderer} {config : Config}
    {manuscript : Manuscript} {bench done : Bench} {article : Article}
    (compiled : compile renderer config manuscript bench = (.ok article, done)) {dir : Path}
    {fs after : FileSystem} {last : Published} (proper : fs.Proper)
    (published : article.publish ⟨dir, manuscript.name⟩ fs = (.ok last, after))
    : let output : Output := ⟨dir, manuscript.name⟩
      let turns := (article.turns output fs).map (·.2)
      after = copyAll (article.copies output fs) (article.prepared output fs)
      ∧ (((article.copies output fs).map fun copy => copy.2.place fs.here).Nodup
        ↔ turns.Pairwise Inclusion.Apart
          ∧ ∀ r ∈ article.resources, ∀ name, .file name ∈ turns →
              r.goal dir fs.here ≠ output.resources.place fs.here ++ [name]) := by
  intro output turns
  obtain ⟨ready, ended⟩ := Article.copyAll_of_publish proper published
  refine ⟨ended, ?_⟩
  have known : ∀ turn ∈ article.turns output fs, turn.2.Proper :=
    (ready.copyAll _).inclusions output.resources article.includes
  have inner : ∀ turn ∈ turns, turn.Proper := List.forall_mem_map.mpr known
  have places : (article.copies output fs).map (fun copy => copy.2.place fs.here)
      = article.resources.map (·.goal dir fs.here)
        ++ turns.flatMap (Inclusion.goals (output.resources.place fs.here)) := by
    rw [Article.copies, List.map_append, resourceCopies, List.map_map, includedCopies,
      List.map_flatMap, List.flatMap_map, List.flatMap_def, List.flatMap_def]
    refine congrArg (_ ++ List.flatten ·) (List.map_congr_left fun turn member => ?_)
    exact Inclusion.places_copies (known turn member) output.resources turn.1 fs.here
  have alone := nodup_goals_of_compile compiled dir fs.here
  have apart := disjoint_resources_iff compiled dir fs.here inner
  rw [places, List.nodup_append, nodup_goals_iff inner]
  constructor
  · rintro ⟨_, pairwise, disjoint⟩
    exact ⟨pairwise, apart.mp disjoint⟩
  · rintro ⟨pairwise, disjoint⟩
    exact ⟨alone, pairwise, apart.mpr disjoint⟩

-----------------------------------------------------------------------------------------
-- A plot beside an included file
-----------------------------------------------------------------------------------------

section

open scoped Publication.StandIns

/-- A manuscript that shows a plot and includes a file. -/
def plotManuscript (file : String) : Manuscript :=
  ⟨"doc", ⟨"."⟩, "include: b/" ++ file ++ "\n\n![a](file://plot.png)\n"⟩

/-- What the manuscript is compiled to. -/
def plotArticle (file : String) : Article where
  name := "doc"
  html := "<p><img src=\"doc/plot.png\" alt=\"a\" /></p>\n"
  contents := []
  record := { url := "doc", title := "doc", imgAlt := "doc" }
  resources := [⟨⟨"./plot.png"⟩, "doc/plot.png", false⟩]
  includes := [⟨"./b/" ++ file⟩]
  usage := {}

/-- The plot, and files to include, one of which has the name of the plot. -/
def plotFiles : FileSystem where
  here := []
  entries :=
    [(["plot.png"], .file [1] false), (["b"], .directory), (["b", "plot.png"], .file [2] false),
      (["b", "data.csv"], .file [3] false)]

theorem proper_plotFiles : plotFiles.Proper where
  here := List.forall_mem_nil _
  names := by decide
  distinct := by decide

theorem exists_compile_plot {file : String} (known : file = "data.csv" ∨ file = "plot.png")
    : ∃ done,
        compile sketcher {} (plotManuscript file) ⟨plotFiles, []⟩
          = (.ok (plotArticle file), done) := by
  have given : (compile sketcher {} (plotManuscript file) ⟨plotFiles, []⟩).1.toOption
      = some (plotArticle file) := by
    rcases known with rfl | rfl <;> decide +kernel
  exact ⟨_, eq_ok_of_toOption given⟩

theorem exists_publish_plot {file : String} (known : file = "data.csv" ∨ file = "plot.png")
    : ∃ last after, (plotArticle file).publish ⟨⟨"."⟩, "doc"⟩ plotFiles = (.ok last, after) := by
  have given : ((plotArticle file).publish ⟨⟨"."⟩, "doc"⟩ plotFiles).1.toOption.isSome = true := by
    rcases known with rfl | rfl <;> decide +kernel
  obtain ⟨last, result⟩ := Option.isSome_iff_exists.mp given
  exact ⟨last, _, eq_ok_of_toOption result⟩

/-- The plot and an included file of another name are copied to different places. -/
theorem nodup_copies_data
    : ∃ done last after,
        compile sketcher {} (plotManuscript "data.csv") ⟨plotFiles, []⟩
          = (.ok (plotArticle "data.csv"), done)
        ∧ plotFiles.Proper
        ∧ (plotArticle "data.csv").publish ⟨⟨"."⟩, "doc"⟩ plotFiles = (.ok last, after)
        ∧ (((plotArticle "data.csv").copies ⟨⟨"."⟩, "doc"⟩ plotFiles).map fun copy =>
            copy.2.place plotFiles.here).Nodup := by
  obtain ⟨done, compiled⟩ := exists_compile_plot (.inl rfl)
  obtain ⟨last, after, published⟩ := exists_publish_plot (.inl rfl)
  refine ⟨done, last, after, compiled, proper_plotFiles, published, ?_⟩
  obtain ⟨_, distinct⟩ := nodup_copies_iff compiled proper_plotFiles published
  refine distinct.mpr ?_
  have turns : (((plotArticle "data.csv").turns ⟨⟨"."⟩, "doc"⟩ plotFiles).map (·.2))
      = [.file "data.csv"] := by
    decide +kernel
  rw [show (plotManuscript "data.csv").name = "doc" from rfl, turns]
  refine ⟨List.pairwise_singleton _ _, fun r member name among => ?_⟩
  obtain rfl := List.mem_singleton.mp member
  cases List.mem_singleton.mp among
  decide

/-- An included file of the name of a plot is copied over it: copies need not go to different
places.
-/
theorem not_forall_nodup_copies
    : ¬ ∀ (renderer : Renderer) (config : Config) (manuscript : Manuscript) (bench done : Bench)
          (article : Article) (dir : Path) (fs after : FileSystem) (last : Published),
          compile renderer config manuscript bench = (.ok article, done) →
          fs.Proper →
          article.publish ⟨dir, manuscript.name⟩ fs = (.ok last, after) →
            ((article.copies ⟨dir, manuscript.name⟩ fs).map fun copy =>
              copy.2.place fs.here).Nodup := by
  intro apart
  obtain ⟨done, compiled⟩ := exists_compile_plot (.inr rfl)
  obtain ⟨last, after, published⟩ := exists_publish_plot (.inr rfl)
  have distinct := apart _ _ _ _ _ _ _ _ _ _ compiled proper_plotFiles published
  have places : ((plotArticle "plot.png").copies ⟨⟨"."⟩, "doc"⟩ plotFiles).map
      (fun copy => copy.2.place plotFiles.here) = [["doc", "plot.png"], ["doc", "plot.png"]] := by
    decide +kernel
  rw [show (plotManuscript "plot.png").name = "doc" from rfl, places] at distinct
  exact absurd distinct (by decide)

end

end Publication
