import Publication.Article.Build
import Publication.Proofs.Article.Includes

/-! What is reported of publishing an article. Each resource is counted as copied or warned of, and
so is each file that is included; a build is complete only if there is nothing to warn of.
-/

namespace Publication

open Publication.Document
open Publication.Latex (Bench Renderer adapt_eq_ok_iff bind_of_error bind_of_ok
  eq_ok_of_toOption sketcher)

-----------------------------------------------------------------------------------------
-- Reports
-----------------------------------------------------------------------------------------

/-- What is to be said of the resources of an article, then of its includes. -/
def Article.account (article : Article) (output : Output) (ready : FileSystem)
    : List (Option Warning) :=
  resourceAccount (resourceTurns output.dir article.resources ready)
    ++ (includeAccounts output.resources article.includes
        (copyAll (resourceCopies output.dir article.resources) ready)).flatten

theorem Article.publish_eq {article : Article} {output : Output} {fs ready : FileSystem}
    (prepared : article.prepare output fs = (.ok (), ready))
    : (article.publish output fs).1
      = match lost? (resourceTurns output.dir article.resources ready) with
        | some error => .error error
        | none =>
            .ok (Published.enter { written := (article.files output).map (·.1) }
              (article.account output ready)) := by
  have stages : article.publish output fs
      = (copyResources output.dir article.resources { written := (article.files output).map (·.1) }
          >>= fun published =>
            modifyGet (copyIncludes output.resources article.includes published)) ready :=
    bind_of_ok ((adapt_eq_ok_iff PublishError.file).mpr prepared)
  rw [stages]
  rcases copyResources_cases output.dir article.resources
    { written := (article.files output).map (·.1) } ready with ⟨error, lost, failed⟩ | ⟨kept, made⟩
  · have ended := Prod.ext (y := (_, _)) failed rfl
    rw [lost, bind_of_error ended]
  · rw [kept, bind_of_ok made, Article.account, Published.enter_append]
    exact congrArg (fun done => Except.ok done.1) (copyIncludes_eq _ _ _ _)

-----------------------------------------------------------------------------------------
-- Builds
-----------------------------------------------------------------------------------------

/-- A build fails as it did, or if there is something to warn of. -/
theorem requireComplete_eq (work : Latex.Work BuildError Build) (bench : Bench)
    : (requireComplete work bench).1
      = match (work bench).1 with
        | .error error => .error (.failed error)
        | .ok build =>
            if build.published.warnings = [] then .ok build else .error (.incomplete build) := by
  rcases done : work bench with ⟨error | build, desk⟩
  · have adapted : (ExceptT.adapt BuildFailure.failed work : Latex.Work BuildFailure Build) bench
        = ((work bench).1.mapError .failed, (work bench).2) := rfl
    rw [done] at adapted
    rw [requireComplete, bind_of_error adapted]
  · rw [requireComplete, bind_of_ok ((adapt_eq_ok_iff BuildFailure.failed).mpr done)]
    by_cases complete : build.published.warnings = []
    · have whole : build.isComplete = true := List.isEmpty_iff.mpr complete
      rw [if_pos whole]
      exact (if_pos complete).symm
    · have short : ¬ build.isComplete = true := fun whole => complete (List.isEmpty_iff.mp whole)
      rw [if_neg short]
      exact (if_neg complete).symm

section

variable [Transliteration] [Image.Scaler]

/-- A file that is read and compiled is built as its article is published. -/
theorem buildWith_of_compile {renderer : Renderer} {config : Config} {input : Path}
    {arg : Option String} {text : String} {bench desk : Bench} {article : Article} {output : Output}
    (resolved : Output.resolve input arg = output) (read : bench.files.readText input = .ok text)
    (compiled
      : compile renderer config ⟨output.name, input.directory, text⟩ bench = (.ok article, desk))
    : (buildWith renderer config input arg bench).1
      = match (article.publish output desk.files).1 with
        | .error error => .error (.publish error)
        | .ok published => .ok ⟨article, output, published⟩ := by
  subst resolved
  have begun : (get : Latex.Work BuildError Bench) bench = (.ok bench, bench) := rfl
  have given : (pure text : Latex.Work BuildError String) bench = (.ok text, bench) := rfl
  have adapted := (adapt_eq_ok_iff BuildError.compile).mpr compiled
  have stages : buildWith renderer config input arg bench
      = (Latex.onFiles .publish (article.publish (Output.resolve input arg)) >>= fun published =>
          pure ⟨article, Output.resolve input arg, published⟩) desk := by
    rw [buildWith, bind_of_ok begun, read]
    exact (bind_of_ok given).trans (bind_of_ok adapted)
  rw [stages]
  rcases done : article.publish (Output.resolve input arg) desk.files with ⟨error | made, after⟩
  · have failed : Latex.onFiles BuildError.publish (article.publish (Output.resolve input arg)) desk
        = (.error (.publish error), ⟨after, desk.calls⟩) := by
      simp only [Latex.onFiles, done]
    rw [bind_of_error failed]
  · have published
        : Latex.onFiles BuildError.publish (article.publish (Output.resolve input arg)) desk
          = (.ok made, ⟨after, desk.calls⟩) := by
      simp only [Latex.onFiles, done]
    rw [bind_of_ok published]
    rfl

/-- Nothing is left out of a report. Where the files of an article are written, the first essential
resource that cannot be copied is the failure; without one, each resource, each included file and
each file below an included directory is either counted as copied or has one warning, as has an
include that is missing or has no name, first the resources and then the includes. Files and
directories are those that are there when their turn comes. A build succeeds only without a warning,
and is handed on otherwise.
-/
theorem publish_reports {article : Article} {output : Output} {fs ready : FileSystem}
    (prepared : article.prepare output fs = (.ok (), ready))
    : let turns := resourceTurns output.dir article.resources ready
      let own := resourceAccount turns
      let included := includeAccounts output.resources article.includes
        (copyAll (resourceCopies output.dir article.resources) ready)
      let account := own ++ included.flatten
      (article.publish output fs).1
        = (match lost? turns with
          | some error => .error error
          | none => .ok {
              written := (article.files output).map (·.1)
              copied := account.count none
              warnings := account.reduceOption })
      ∧ own.length = article.resources.length
      ∧ included.map List.length = (article.turns output fs).map (fun turn => turn.2.size)
      ∧ ∀ renderer config input arg text bench desk,
          Output.resolve input arg = output →
          bench.files.readText input = .ok text →
          compile renderer config ⟨output.name, input.directory, text⟩ bench
            = (.ok article, desk) →
          desk.files = fs →
          (requireComplete (buildWith renderer config input arg) bench).1
            = match (article.publish output fs).1 with
              | .error error => .error (.failed (.publish error))
              | .ok published =>
                  if published.warnings = [] then .ok ⟨article, output, published⟩
                  else .error (.incomplete ⟨article, output, published⟩) := by
  intro turns own included account
  refine ⟨?_, ?_, ?_, ?_⟩
  · rw [Article.publish_eq prepared, Published.enter_eq, Nat.zero_add, List.nil_append]
    rfl
  · exact (List.length_map _).trans (length_resourceTurns _ _ _)
  · have ready : article.prepared output fs = ready := by rw [Article.prepared, prepared]
    rw [Article.turns, ready]
    exact map_length_includeAccounts _ _ _
  · rintro renderer config input arg text bench desk resolved read compiled rfl
    rw [requireComplete_eq, buildWith_of_compile resolved read compiled]
    cases (article.publish output desk.files).1 <;> rfl

end

section

open scoped Publication.StandIns

/-- A note that shows two pictures and includes a directory and a file. -/
def surveyNote : String :=
  "include: data\n    lost.csv\n\n![a](file://plot.png)\n![b](file://gone.png)\n"

/-- The note with one of its pictures and the directory. -/
def surveyFiles : FileSystem where
  here := []
  entries :=
    [(["doc.md"], .file (Text.utf8 surveyNote) false), (["plot.png"], .file [1] false),
      (["data"], .directory), (["data", "a.csv"], .file [2] false)]

/-- What the note is compiled to. -/
def surveyArticle : Article where
  name := "doc"
  html := "<p><img src=\"doc/plot.png\" alt=\"a\" />\n<img src=\"doc/gone.png\" alt=\"b\" /></p>\n"
  contents := []
  record := { url := "doc", title := "doc", imgAlt := "doc" }
  resources := [⟨⟨"./plot.png"⟩, "doc/plot.png", false⟩, ⟨⟨"./gone.png"⟩, "doc/gone.png", false⟩]
  includes := [⟨"./data"⟩, ⟨"./lost.csv"⟩]
  usage := {}

theorem publish_reports_survey
    : ∃ desk ready,
        compile sketcher {} ⟨"doc", ⟨"."⟩, surveyNote⟩ ⟨surveyFiles, []⟩ = (.ok surveyArticle, desk)
        ∧ surveyArticle.prepare ⟨⟨"."⟩, "doc"⟩ desk.files = (.ok (), ready)
        ∧ (requireComplete (buildWith sketcher {} ⟨"doc.md"⟩ none) ⟨surveyFiles, []⟩).1
          = .error (.incomplete ⟨surveyArticle, ⟨⟨"."⟩, "doc"⟩, {
              written := [⟨"./doc.html"⟩, ⟨"./doc.toc"⟩, ⟨"./doc.meta"⟩]
              copied := 2
              warnings := [.resource ⟨"./gone.png"⟩ "doc/gone.png" .notFound,
                .missingInclude ⟨"./lost.csv"⟩] }⟩) := by
  have given : (compile sketcher {} ⟨"doc", ⟨"."⟩, surveyNote⟩ ⟨surveyFiles, []⟩).1.toOption
      = some surveyArticle := by
    decide +kernel
  have compiled := eq_ok_of_toOption given
  have made : (surveyArticle.prepare ⟨⟨"."⟩, "doc"⟩
      (compile sketcher {} ⟨"doc", ⟨"."⟩, surveyNote⟩ ⟨surveyFiles, []⟩).2.files).1.toOption
      = some () := by
    decide +kernel
  have prepared := eq_ok_of_toOption made
  refine ⟨_, _, compiled, prepared, ?_⟩
  obtain ⟨published, _, _, built⟩ := publish_reports prepared
  rw [built sketcher {} ⟨"doc.md"⟩ none surveyNote ⟨surveyFiles, []⟩ _ rfl rfl compiled rfl,
    published]
  decide +kernel

end

end Publication
