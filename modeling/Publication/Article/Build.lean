import Publication.Article.Compile
import Publication.Article.Publish
import Publication.Article.Report
import Publication.Config.Load

/-!
Building: a file is read, compiled with the settings that hold for it, and published.
-/

namespace Publication

/-- Why a file was not built. -/
inductive BuildError where
  | config (error : Config.Error)
  | unreadable (path : Path) (error : FileError)
  | compile (error : CompileError)
  | publish (error : PublishError)
deriving Repr, DecidableEq

def BuildError.message : BuildError → String
  | .config e => e.message
  | .unreadable path e => "failed to read " ++ path.text ++ ": " ++ e.message
  | .compile e => e.message
  | .publish e => e.message

/-- An article and what was published of it. -/
structure Build where
  article : Article
  output : Output
  published : Published
deriving Repr, DecidableEq

namespace Build

/-- Nothing was left out. -/
def isComplete (build : Build) : Bool := build.published.warnings.isEmpty

/-- What is said where something was left out. -/
def shortfall (build : Build) : String :=
  toString build.published.warnings.length ++ " file(s) could not be copied"

/-- The warnings in words. -/
def warnings (build : Build) : List String := build.published.warnings.map (·.message)

/-- The lines on what was built. -/
def report (build : Build) : List String :=
  build.article.report build.output build.published.copied build.warnings

end Build

/-- Why a file is not published as a whole. -/
inductive BuildFailure where
  | failed (error : BuildError)
  /-- Something was left out of what was built. -/
  | incomplete (build : Build)
deriving Repr, DecidableEq

def BuildFailure.message : BuildFailure → String
  | .failed e => e.message
  | .incomplete build => build.shortfall

/-- Lets a build that left something out fail; what was built of it is handed on. -/
def requireComplete (work : Latex.Work BuildError Build) : Latex.Work BuildFailure Build := do
  let build ← ExceptT.adapt .failed work
  if build.isComplete then return build else throw (.incomplete build)

section

variable [Transliteration] [Image.Scaler]

/-- Compiles and publishes a file with given settings. -/
def buildWith (renderer : Latex.Renderer) (config : Config) (input : Path) (arg : Option String) :
    Latex.Work BuildError Build := do
  let text ← match (← get).files.readText input with
    | .ok text => pure text
    | .error e => throw (.unreadable input e)
  let output := Output.resolve input arg
  let article ← ExceptT.adapt .compile
    (compile renderer config ⟨output.name, input.directory, text⟩)
  let published ← Latex.onFiles .publish (article.publish output)
  return ⟨article, output, published⟩

/-- Compiles and publishes a file. The settings are read first; the renderer depends on them. -/
def build (renderer : Config → Latex.Renderer) (input : Path) (arg : Option String)
    (options : Config.Options) : Latex.Work BuildError Build := do
  match Config.effective (← get).files input options with
  | .ok config => buildWith (renderer config) config input arg
  | .error e => throw (.config e)

end

end Publication
