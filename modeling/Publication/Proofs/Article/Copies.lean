import Publication.Article.Publish
import Publication.Proofs.Article.Recompilation
import Publication.Proofs.Document.Manifests
import Publication.Proofs.FileSystem.Contents

/-! What is copied when an article is published. Resources are copied one after the other to places
of their own, so a copy holds what was at its source when its turn came; that is what was there
before, unless something was written there in the meantime, or the source is the place of the copy.
-/

namespace Publication

open Publication.Document
open Publication.FileSystem (Gains nowhere)
open Publication.Latex (Bench Renderer adapt_eq_ok_iff bind_eq_ok_iff eq_ok_of_toOption
  pure_eq_ok_iff sketcher)
open Publication.Text

-----------------------------------------------------------------------------------------
-- Files that are written and copied
-----------------------------------------------------------------------------------------

section

variable {fs after : FileSystem}

/-- A change of the files succeeds. -/
theorem modifyGet_eq_ok_iff {α : Type} {change : FileSystem → α × FileSystem} {a : α}
    : (modifyGet change : Publishing α) fs = (.ok a, after) ↔ change fs = (a, after) := by
  constructor
  · intro done
    obtain ⟨whole, ended⟩ := Prod.mk.inj done
    exact Prod.ext (Except.ok.inj whole) ended
  · intro same
    change (Except.ok (change fs).1, (change fs).2) = (Except.ok a, after)
    rw [same]

theorem gains_of_makeDirectories {path : Path}
    (made : FileSystem.makeDirectories path fs = (.ok (), after)) (region : Location → Prop)
    : Gains region fs after := by
  have gains := FileSystem.gains_makeDirectories region path fs
  rwa [made] at gains

/-- A file that is copied goes to its goal, unless it is there: then nothing is left of it. -/
theorem exists_bytes_of_attempt {source goal : Path}
    (copied : attempt source goal fs = (none, after))
    : ∃ bytes,
        fs.Has (source.place fs.here) bytes
        ∧ Gains (· = goal.place fs.here) fs after
        ∧ after.locate goal = .ok (goal.place fs.here)
        ∧ ∀ found,
            after.Has (goal.place fs.here) found
            ↔ found = if goal.place fs.here = source.place fs.here then [] else bytes := by
  have done : copyInto source goal fs = (.ok (), after) := by
    simp only [attempt] at copied
    split at copied
    next copied' => cases copied; assumption
    next => cases copied
  obtain ⟨middle, prepared, rest⟩
      : ∃ middle, Gains nowhere fs middle
          ∧ FileSystem.perform (fun fs => fs.copy source goal) middle = (.ok (), after) := by
    cases inside : goal.parent? with
    | some dir =>
        simp only [copyInto, inside] at done
        obtain ⟨_, middle, made, rest⟩ := bind_eq_ok_iff.mp done
        exact ⟨middle, gains_of_makeDirectories made _, rest⟩
    | none =>
        simp only [copyInto, inside] at done
        exact ⟨fs, .refl _ _, done⟩
  obtain ⟨bytes, read, filled⟩ := FileSystem.filled_of_copy (FileSystem.perform_eq_ok_iff.mp rest)
  have here := prepared.grows.here
  rw [here] at filled
  have gains := filled.gains
  have held := FileSystem.has_of_read read
  have led := filled.grows.locate filled.locate
  have self := filled.has_self
  rw [here] at gains held led self
  exact ⟨bytes, (prepared.has_iff id bytes).mp held,
    (prepared.mono fun _ => False.elim).trans gains, led, self⟩

/-- Texts that are written to different places are there, and nothing else changes, by induction on
the texts.
-/
theorem gains_of_writeTexts {files : List (Path × String)}
    (distinct : (files.map fun file => file.1.place fs.here).Nodup)
    (written : writeTexts files fs = (.ok (), after))
    : Gains (· ∈ files.map fun file => file.1.place fs.here) fs after
      ∧ ∀ file ∈ files, ∀ found,
          after.Has (file.1.place fs.here) found ↔ found = utf8 file.2 := by
  induction files generalizing fs with
  | nil =>
      obtain ⟨_, rfl⟩ := pure_eq_ok_iff.mp written
      exact ⟨.refl _ _, fun _ member => absurd member List.not_mem_nil⟩
  | cons file rest ih =>
      obtain ⟨apart, distinct⟩ := List.nodup_cons.mp distinct
      obtain ⟨_, middle, first, written⟩ := bind_eq_ok_iff.mp written
      have filled := FileSystem.filled_of_write (FileSystem.perform_eq_ok_iff.mp first)
      rw [← filled.here] at distinct
      obtain ⟨gains, held⟩ := ih distinct written
      rw [filled.here] at gains held
      refine ⟨(filled.gains.mono ?_).trans (gains.mono ?_), ?_⟩
      · rintro place rfl
        exact List.mem_cons_self
      · exact fun place among => List.mem_cons_of_mem _ among
      · intro other member found
        rcases List.mem_cons.mp member with rfl | member
        · rw [gains.has_iff apart, filled.has_self]
        · exact held other member found

end

-----------------------------------------------------------------------------------------
-- Resources that are copied
-----------------------------------------------------------------------------------------

/-- The place that a resource is copied to. -/
def Document.Resource.goal (r : Resource) (dir : Path) (here : Location) : Location :=
  (dir.child r.target).place here

/-- Resources that were all copied, one after the other. -/
inductive Copied (dir : Path) : List Resource → FileSystem → FileSystem → Prop
  | nil (fs : FileSystem) : Copied dir [] fs fs
  | cons {r : Resource} {rest : List Resource} {fs middle after : FileSystem}
      (first : attempt r.source (dir.child r.target) fs = (none, middle))
      (others : Copied dir rest middle after)
      : Copied dir (r :: rest) fs after

section

variable {dir : Path} {resources earlier later : List Resource} {r : Resource}
  {fs after : FileSystem} {published last : Published}

/-- If nothing is warned of at the end, all resources were copied, and nothing was warned of before.
By induction on the resources.
-/
theorem copied_of_copyResources (complete : last.warnings = [])
    (done : copyResources dir resources published fs = (.ok last, after))
    : published.warnings = [] ∧ Copied dir resources fs after := by
  induction resources generalizing published fs with
  | nil =>
      obtain ⟨rfl, rfl⟩ := pure_eq_ok_iff.mp done
      exact ⟨complete, .nil _⟩
  | cons r rest ih =>
      obtain ⟨failure, middle, first, others⟩ := bind_eq_ok_iff.mp done
      have attempted := modifyGet_eq_ok_iff.mp first
      cases failure with
      | none =>
          obtain ⟨silent, copied⟩ := ih others
          exact ⟨silent, .cons attempted copied⟩
      | some e =>
          simp only at others
          split at others
          · cases others
          · have warned := (ih others).1
            simp [Published.warn] at warned

/-- Copies change nothing but what is at their goals, by induction on the resources. -/
theorem Copied.gains (copied : Copied dir resources fs after)
    : Gains (· ∈ resources.map (·.goal dir fs.here)) fs after := by
  induction copied with
  | nil fs => exact .refl _ fs
  | cons first others ih =>
      obtain ⟨_, _, gains, _, _⟩ := exists_bytes_of_attempt first
      rw [gains.grows.here] at ih
      refine (gains.mono ?_).trans (ih.mono fun _ among => List.mem_cons_of_mem _ among)
      rintro place rfl
      exact List.mem_cons_self

/-- Copies can be parted, by induction on the first of them. -/
theorem Copied.exists_of_append (copied : Copied dir (earlier ++ later) fs after)
    : ∃ middle, Copied dir earlier fs middle ∧ Copied dir later middle after := by
  induction earlier generalizing fs with
  | nil => exact ⟨fs, .nil fs, copied⟩
  | cons r rest ih =>
      cases copied with
      | cons first others =>
          obtain ⟨middle, front, back⟩ := ih others
          exact ⟨middle, .cons first front, back⟩

/-- If the goals are different, a resource is copied from what was there after the copies before it,
and stays as it was copied.
-/
theorem Copied.exists_bytes (copied : Copied dir (earlier ++ r :: later) fs after)
    (distinct : ((earlier ++ r :: later).map (·.goal dir fs.here)).Nodup)
    : ∃ middle bytes,
        Copied dir earlier fs middle
        ∧ middle.Has (r.source.place fs.here) bytes
        ∧ (∀ place, place ∉ (r :: later).map (·.goal dir fs.here) →
            ∀ found, after.Has place found ↔ middle.Has place found)
        ∧ ∀ found,
            after.read (dir.child r.target) = .ok found
            ↔ found = if r.goal dir fs.here = r.source.place fs.here then [] else bytes := by
  obtain ⟨middle, front, back⟩ := copied.exists_of_append
  have here := front.gains.grows.here
  have kept := back.gains
  rw [here] at kept
  cases back with
  | cons first others =>
      obtain ⟨bytes, held, gains, led, self⟩ := exists_bytes_of_attempt first
      have rest := others.gains
      rw [gains.grows.here] at rest
      rw [here] at held led self rest
      refine ⟨middle, bytes, front, held, fun place outside => kept.has_iff outside, ?_⟩
      intro found
      rw [List.map_append, List.nodup_append] at distinct
      have alone := (List.nodup_cons.mp distinct.2.1).1
      rw [FileSystem.read_iff_has (rest.grows.locate led)]
      exact (rest.has_iff alone found).trans (self found)

end

-----------------------------------------------------------------------------------------
-- Articles that are published
-----------------------------------------------------------------------------------------

/-- Names that differ only in a long ending lead to names that differ in it. -/
theorem Path.exists_place_child (dir : Path) (name : String) (here : Location)
    : ∃ outer base,
        ∀ ending : String, '/' ∉ ending.toList → 2 < ending.toList.length →
          (dir.child (name ++ ending)).place here = outer ++ [base ++ ending] := by
  have proper {base ending : String} (free : '/' ∉ base.toList) (plain : '/' ∉ ending.toList)
      (long : 2 < ending.toList.length) : IsName (base ++ ending) := by
    refine isName_of_length ?_ ?_
    · rw [String.toList_append, List.mem_append, not_or]
      exact ⟨free, plain⟩
    · rw [String.toList_append, List.length_append]
      omega
  by_cases nested : '/' ∈ name.toList
  · obtain ⟨back, front, whole, free⟩ :=
      List.eq_append_cons_of_mem (List.mem_reverse.mpr nested)
    have cut : name = String.ofList front.reverse ++ "/" ++ String.ofList back.reverse := by
      rw [← String.toList_inj, ← List.reverse_inj, whole]
      simp
    obtain ⟨outer, _, leads⟩ :=
      (folder_child_of_separator dir (String.ofList front.reverse)).leads here
    refine ⟨outer, String.ofList back.reverse, fun ending plain long => ?_⟩
    rw [cut, String.append_assoc]
    exact (leads _ (proper (by simpa using free) plain long)).1
  · obtain ⟨outer, _, leads⟩ := (folder_child dir).leads here
    exact ⟨outer, name, fun ending plain long => (leads _ (proper nested plain long)).1⟩

/-- The files of an article are at different places. -/
theorem Article.nodup_files (article : Article) (output : Output) (here : Location)
    : ((article.files output).map fun file => file.1.place here).Nodup := by
  obtain ⟨outer, base, leads⟩ := output.dir.exists_place_child output.name here
  have apart {first second : String} (differ : first ≠ second)
      : outer ++ [base ++ first] ≠ outer ++ [base ++ second] := by
    intro same
    have whole := congrArg String.toList (List.append_singleton_inj.mp same).2
    rw [String.toList_append, String.toList_append] at whole
    exact differ (String.toList_inj.mp (List.append_cancel_left whole))
  simp only [Article.files, Output.html, Output.contents, Output.record, List.map_cons,
    List.map_nil, leads ".html" (by decide) (by decide), leads ".toc" (by decide) (by decide),
    leads ".meta" (by decide) (by decide)]
  refine List.nodup_cons.mpr ⟨?_, List.nodup_cons.mpr ⟨?_, List.pairwise_singleton _ _⟩⟩
  · simp only [List.mem_cons, List.not_mem_nil, or_false, not_or]
    exact ⟨apart (by decide), apart (by decide)⟩
  · rw [List.mem_singleton]
    exact apart (by decide)

section

variable [Image.Scaler] {settings : ThumbnailSettings} {dir : Path} {manifest : Manifest}
  {bench after : Bench}

/-- The image of an article is published under one more name, or is no file. -/
theorem manifest_of_cover {image : String} {covered : String × Manifest}
    (done : cover settings dir manifest image bench = (.ok covered, after))
    : covered.2 = manifest
      ∨ ∃ source base, IsName base ∧ covered.2 = (manifest.claimAs source base true).2 := by
  cases named : Path.ofReference? image dir with
  | none =>
      simp only [cover, named] at done
      obtain ⟨rfl, _⟩ := pure_eq_ok_iff.mp done
      exact .inl rfl
  | some source =>
      cases enabled : settings.enabled with
      | false =>
          simp only [cover, named, enabled, Bool.false_eq_true, if_false] at done
          obtain ⟨rfl, _⟩ := pure_eq_ok_iff.mp done
          exact .inr ⟨source, _, source.isName_publishedName, rfl⟩
      | true =>
          simp only [cover, named, enabled, if_true] at done
          obtain ⟨_, _, _, ended⟩ := bind_eq_ok_iff.mp done
          obtain ⟨rfl, _⟩ := pure_eq_ok_iff.mp ended
          exact .inr ⟨_, _, source.isName_publishedName, rfl⟩

theorem manifest_of_cover? {image : Option String} {covered : Option String × Manifest}
    (done : cover? settings dir manifest image bench = (.ok covered, after))
    : covered.2 = manifest
      ∨ ∃ source base, IsName base ∧ covered.2 = (manifest.claimAs source base true).2 := by
  cases image with
  | none =>
      obtain ⟨rfl, _⟩ := pure_eq_ok_iff.mp done
      exact .inl rfl
  | some image =>
      obtain ⟨⟨address, manifest⟩, _, first, ended⟩ := bind_eq_ok_iff.mp done
      obtain ⟨rfl, _⟩ := pure_eq_ok_iff.mp ended
      exact manifest_of_cover first

/-- The image of an article has a target of its own, in the same directory. -/
theorem sound_of_cover? {image : Option String} {covered : Option String × Manifest}
    (sound : manifest.Sound)
    (done : cover? settings dir manifest image bench = (.ok covered, after))
    : covered.2.Sound ∧ covered.2.directory = manifest.directory := by
  rcases manifest_of_cover? done with same | ⟨source, base, proper, same⟩
  · rw [same]
    exact ⟨sound, rfl⟩
  · rw [same]
    exact ⟨sound.claimAs source proper true, rfl⟩

end

section

variable [Transliteration] [Image.Scaler] {renderer : Renderer} {config : Config}
  {manuscript : Manuscript} {bench done : Bench} {article : Article}

/-- The resources of an article are the entries of a sound manifest, whose directory has the name of
the article.
-/
theorem exists_manifest_of_compile
    (compiled : compile renderer config manuscript bench = (.ok article, done))
    : ∃ manifest : Manifest,
        manifest.Sound
        ∧ manifest.directory = manuscript.name
        ∧ manifest.entries = article.resources := by
  rw [compile_eq] at compiled
  obtain ⟨expanded, _, _, rest⟩ := bind_eq_ok_iff.mp compiled
  obtain ⟨covered, _, seen, ended⟩ := bind_eq_ok_iff.mp rest
  obtain ⟨rfl, _⟩ := pure_eq_ok_iff.mp ended
  obtain ⟨sound, directory⟩ := sound_of_cover? (sound_extractResources _ _ _) seen
  exact ⟨covered.2, sound, directory.trans (directory_extractResources _ _ _), rfl⟩

/-- The resources of an article are copied to different places. -/
theorem nodup_goals_of_compile
    (compiled : compile renderer config manuscript bench = (.ok article, done)) (dir : Path)
    (here : Location)
    : (article.resources.map (·.goal dir here)).Nodup := by
  obtain ⟨manifest, sound, _, entries⟩ := exists_manifest_of_compile compiled
  exact entries ▸ sound.nodup_places dir here

end

section

variable {article : Article} {output : Output} {fs after : FileSystem} {last : Published}

/-- Where an article is published, its files are written, then its resources and then its includes
are copied.
-/
theorem Article.exists_stages_of_publish
    (published : article.publish output fs = (.ok last, after))
    : ∃ outer middle written copied behind,
        FileSystem.makeDirectories output.dir fs = (.ok (), outer)
        ∧ writeTexts (article.files output) outer = (.ok (), middle)
        ∧ FileSystem.makeDirectories output.resources middle = (.ok (), written)
        ∧ copyResources output.dir article.resources
            { written := (article.files output).map (·.1) } written = (.ok copied, behind)
        ∧ copyIncludes output.resources article.includes copied behind = (last, after) := by
  obtain ⟨_, written, prepared, rest⟩ := bind_eq_ok_iff.mp published
  obtain ⟨copied, behind, done, included⟩ := bind_eq_ok_iff.mp rest
  obtain ⟨_, outer, first, texts⟩ := bind_eq_ok_iff.mp ((adapt_eq_ok_iff _).mp prepared)
  obtain ⟨_, middle, wrote, second⟩ := bind_eq_ok_iff.mp texts
  exact ⟨outer, middle, written, copied, behind, first, wrote, second, done,
    modifyGet_eq_ok_iff.mp included⟩

/-- What is done before the copies puts the files of the article where they belong. -/
theorem Article.gains_of_stages {outer middle written : FileSystem}
    (first : FileSystem.makeDirectories output.dir fs = (.ok (), outer))
    (wrote : writeTexts (article.files output) outer = (.ok (), middle))
    (second : FileSystem.makeDirectories output.resources middle = (.ok (), written))
    : Gains (· ∈ (article.files output).map fun file => file.1.place fs.here) fs written
      ∧ ∀ file ∈ article.files output, ∀ found,
          written.Has (file.1.place fs.here) found ↔ found = utf8 file.2 := by
  have before := gains_of_makeDirectories first nowhere
  obtain ⟨gains, held⟩ := gains_of_writeTexts (article.nodup_files output outer.here) wrote
  have behind := gains_of_makeDirectories second nowhere
  rw [before.grows.here] at gains held
  refine ⟨?_, fun file member found => ?_⟩
  · exact ((before.mono fun _ => False.elim).trans gains).trans (behind.mono fun _ => False.elim)
  · rw [behind.has_iff id, held file member]

/-- An article that is published without a warning has its files written and then all its resources
copied.
-/
theorem Article.exists_copied_of_publish (alone : article.includes = [])
    (published : article.publish output fs = (.ok last, after)) (complete : last.warnings = [])
    : ∃ written,
        Gains (· ∈ (article.files output).map fun file => file.1.place fs.here) fs written
        ∧ (∀ file ∈ article.files output, ∀ found,
            written.Has (file.1.place fs.here) found ↔ found = utf8 file.2)
        ∧ Copied output.dir article.resources written after := by
  obtain ⟨_, _, written, copied, behind, first, wrote, second, done, included⟩ :=
    Article.exists_stages_of_publish published
  obtain ⟨gains, held⟩ := Article.gains_of_stages first wrote second
  rw [alone] at included
  obtain ⟨rfl, rfl⟩ := Prod.mk.inj included
  exact ⟨written, gains, held, (copied_of_copyResources complete done).2⟩

/-- What keeps a copy of these octets as it should be. The first copies of the article are those of
`earlier`; then comes the one of `r`.
-/
structure Article.Spares (article : Article) (output : Output) (here : Location)
    (after : FileSystem) (earlier : List Resource) (r : Resource) (bytes : List UInt8) : Prop where
  /-- A file that is its own copy is emptied. -/
  itself : r.source.place here = r.goal output.dir here → bytes = []
  /-- An earlier copy was put in the place of the file. -/
  copies
    : ∀ e ∈ earlier,
        r.source.place here = e.goal output.dir here → after.Has (e.goal output.dir here) bytes
  /-- A file of the article was put in its place. -/
  files
    : r.source.place here ∉ (earlier ++ [r]).map (·.goal output.dir here) →
        ∀ file ∈ article.files output, r.source.place here = file.1.place here → bytes = utf8 file.2

variable {here : Location} {earlier later : List Resource} {r : Resource} {bytes : List UInt8}

/-- A file that is its own copy spares only nothing. -/
theorem Article.spares_of_own (own : r.source.place here = r.goal output.dir here)
    (apart : r.source.place here ∉ earlier.map (·.goal output.dir here))
    : article.Spares output here after earlier r bytes ↔ bytes = [] := by
  refine ⟨fun spares => spares.itself own, fun empty => ⟨fun _ => empty, ?_, ?_⟩⟩
  · intro e among same
    exact absurd (List.mem_map.mpr ⟨e, among, same.symm⟩) apart
  · intro fresh
    simp [own] at fresh

/-- What is spared where an earlier copy was put is what that holds. -/
theorem Article.spares_of_copy (other : r.source.place here ≠ r.goal output.dir here)
    (copy : r.source.place here ∈ earlier.map (·.goal output.dir here))
    : article.Spares output here after earlier r bytes
      ↔ after.Has (r.source.place here) bytes := by
  obtain ⟨e, among, same⟩ := List.mem_map.mp copy
  refine ⟨fun spares => same ▸ spares.copies e among same.symm, fun has =>
    ⟨fun own => absurd own other, fun e _ same => same ▸ has, fun fresh => ?_⟩⟩
  exact absurd (List.mem_map.mpr ⟨e, List.mem_append_left _ among, same⟩) fresh

/-- Where no copy was put, only the files of the article matter. -/
theorem Article.spares_of_fresh
    (fresh : r.source.place here ∉ (earlier ++ [r]).map (·.goal output.dir here))
    : article.Spares output here after earlier r bytes
      ↔ ∀ file ∈ article.files output,
          r.source.place here = file.1.place here → bytes = utf8 file.2 := by
  rw [List.map_append, List.mem_append, not_or] at fresh
  refine ⟨fun spares => spares.files ?_,
    fun files => ⟨fun own => ?_, fun e among same => ?_, fun _ => files⟩⟩
  · rw [List.map_append, List.mem_append, not_or]
    exact fresh
  · exact absurd (List.mem_singleton.mpr own) fresh.2
  · exact absurd (List.mem_map.mpr ⟨e, among, same.symm⟩) fresh.1

/-- If an article without includes is published without a warning, the copy of a resource holds
what its source held before exactly if nothing else was put in the place of the source until its
turn, and the source is no copy of itself. All other files stay as they were.
-/
theorem read_copy_iff [Transliteration] [Image.Scaler] {renderer : Renderer} {config : Config}
    {manuscript : Manuscript} {bench done : Bench}
    (compiled : compile renderer config manuscript bench = (.ok article, done))
    (alone : article.includes = [])
    (published : article.publish output fs = (.ok last, after)) (complete : last.warnings = [])
    : (∀ earlier r later bytes,
        article.resources = earlier ++ r :: later →
        fs.Has (r.source.place fs.here) bytes →
          (after.read (output.dir.child r.target) = .ok bytes
            ↔ article.Spares output fs.here after earlier r bytes))
      ∧ ∀ place bytes,
          fs.Has place bytes →
          place ∉ article.resources.map (·.goal output.dir fs.here) →
          place ∉ (article.files output).map (fun file => file.1.place fs.here) →
            after.Has place bytes := by
  obtain ⟨written, texts, held, copied⟩ :=
    Article.exists_copied_of_publish alone published complete
  have here := texts.grows.here
  have distinct := nodup_goals_of_compile compiled output.dir fs.here
  refine ⟨fun earlier r later bytes whole source => ?_, fun place bytes before apart other => ?_⟩
  · rw [whole] at copied distinct
    rw [← here] at distinct
    obtain ⟨middle, found, front, present, kept, result⟩ := copied.exists_bytes distinct
    have gains := front.gains
    rw [here] at distinct gains present kept result
    rw [List.map_append] at distinct
    have apart := (List.nodup_append.mp distinct).2.2
    rw [result]
    by_cases own : r.source.place fs.here = r.goal output.dir fs.here
    · rw [if_pos own.symm, Article.spares_of_own own]
      exact fun copy => apart _ copy _ List.mem_cons_self own
    · -- The copy holds what was at the source at its turn.
      rw [if_neg (Ne.symm own)]
      have turn : bytes = found ↔ middle.Has (r.source.place fs.here) bytes :=
        ⟨fun same => same ▸ present, fun has => has.eq present⟩
      rw [turn]
      by_cases copy : r.source.place fs.here ∈ earlier.map (·.goal output.dir fs.here)
      · rw [Article.spares_of_copy own copy]
        exact (kept _ (fun again => apart _ copy _ again rfl) bytes).symm
      · have fresh : r.source.place fs.here ∉ (earlier ++ [r]).map (·.goal output.dir fs.here) := by
          rw [List.map_append, List.mem_append, not_or]
          exact ⟨copy, fun is => own (List.mem_singleton.mp is)⟩
        rw [gains.has_iff copy, Article.spares_of_fresh fresh]
        refine ⟨fun has file among same => (held file among bytes).mp (same ▸ has), fun files => ?_⟩
        by_cases text : r.source.place fs.here
            ∈ (article.files output).map fun file => file.1.place fs.here
        · obtain ⟨file, among, same⟩ := List.mem_map.mp text
          rw [← same]
          exact (held file among bytes).mpr (files file among same.symm)
        · exact (texts.has_iff text bytes).mpr source
  · have gains := copied.gains
    rw [here] at gains
    exact (gains.has_iff apart bytes).mpr ((texts.has_iff other bytes).mpr before)

end

-----------------------------------------------------------------------------------------
-- A picture in its resource directory
-----------------------------------------------------------------------------------------

section

open scoped Publication.StandIns

/-- A manuscript that shows a picture from the directory that its resources are published in. -/
def pictureNote : Manuscript := ⟨"doc", ⟨"."⟩, "![a](file://doc/plot.png)\n"⟩

def picture : Resource := ⟨⟨"./doc/plot.png"⟩, "doc/plot.png", false⟩

/-- What the manuscript is compiled to. -/
def pictureArticle : Article where
  name := "doc"
  html := "<p><img src=\"doc/plot.png\" alt=\"a\" /></p>\n"
  contents := []
  record := { url := "doc", title := "doc", imgAlt := "doc" }
  resources := [picture]
  includes := []
  usage := {}

/-- The files of the manuscript: nothing but the picture. -/
def pictureFiles : FileSystem where
  here := []
  entries := [(["doc"], .directory), (["doc", "plot.png"], .file [137, 80] false)]

theorem exists_compile_picture
    : ∃ done,
        compile sketcher {} pictureNote ⟨pictureFiles, []⟩ = (.ok pictureArticle, done) := by
  have given : (compile sketcher {} pictureNote ⟨pictureFiles, []⟩).1.toOption
      = some pictureArticle := by
    decide +kernel
  exact ⟨_, eq_ok_of_toOption given⟩

/-- The article is published without a warning, next to the picture and elsewhere. -/
theorem exists_publish_picture {dir : Path} (known : dir = ⟨"."⟩ ∨ dir = ⟨"out"⟩)
    : ∃ last after,
        pictureArticle.publish ⟨dir, "doc"⟩ pictureFiles = (.ok last, after)
        ∧ last.warnings = []
        ∧ after = (pictureArticle.publish ⟨dir, "doc"⟩ pictureFiles).2 := by
  have given : (pictureArticle.publish ⟨dir, "doc"⟩ pictureFiles).1.toOption.map (·.warnings)
      = some [] := by
    rcases known with rfl | rfl <;> decide +kernel
  obtain ⟨last, result, complete⟩ := Option.map_eq_some_iff.mp given
  exact ⟨last, _, eq_ok_of_toOption result, complete, rfl⟩

/-- The picture is copied as it is to another directory. -/
theorem read_picture_elsewhere
    : ∃ last after,
        pictureArticle.publish ⟨⟨"out"⟩, "doc"⟩ pictureFiles = (.ok last, after)
        ∧ last.warnings = []
        ∧ after.read ⟨"out/doc/plot.png"⟩ = .ok [137, 80] := by
  obtain ⟨done, compiled⟩ := exists_compile_picture
  obtain ⟨last, after, published, complete, _⟩ := exists_publish_picture (.inr rfl)
  refine ⟨last, after, published, complete, ?_⟩
  have source : pictureFiles.Has (picture.source.place []) [137, 80] :=
    ⟨false, by decide +kernel⟩
  refine ((read_copy_iff compiled rfl published complete).1 [] picture [] _ rfl source).mpr ?_
  refine ⟨fun own => ?_, fun _ among => absurd among List.not_mem_nil, fun _ file among same => ?_⟩
  · exact absurd own (by decide +kernel)
  · have apart : ∀ file ∈ pictureArticle.files ⟨⟨"out"⟩, "doc"⟩,
        picture.source.place [] ≠ file.1.place [] := by
      decide +kernel
    exact absurd same (apart file among)

/-- A picture that is published where it is is lost: the copies of an article need not be faithful.
-/
theorem not_forall_faithful
    : ¬ ∀ (renderer : Renderer) (config : Config) (manuscript : Manuscript) (bench done : Bench)
          (article : Article) (dir : Path) (fs after : FileSystem) (last : Published),
          compile renderer config manuscript bench = (.ok article, done) →
          article.includes = [] →
          article.publish ⟨dir, manuscript.name⟩ fs = (.ok last, after) →
          last.warnings = [] →
            ∀ r ∈ article.resources, ∀ bytes,
              fs.read r.source = .ok bytes → after.read (dir.child r.target) = .ok bytes := by
  intro faithful
  obtain ⟨done, compiled⟩ := exists_compile_picture
  obtain ⟨last, after, published, complete, ended⟩ := exists_publish_picture (.inl rfl)
  have source : pictureFiles.read picture.source = .ok [137, 80] :=
    (FileSystem.read_eq_ok_iff _ _ _).mpr ⟨["doc", "plot.png"], false, by decide +kernel⟩
  have copy := faithful _ _ _ _ _ _ _ _ _ _ compiled rfl published complete picture
    (List.mem_singleton.mpr rfl) _ source
  have emptied : after.read (Path.child ⟨"."⟩ picture.target) = .ok [] := by
    rw [ended]
    decide +kernel
  cases emptied.symm.trans copy

end

end Publication
