import Publication.Article.Build
import Publication.Catalog.Report
import Publication.Catalog.Store
import Publication.CommandLine.Invocation
import Publication.Config.Stock
import Publication.Latex.Toolchain

/-!
Doing what a command line asks for. The answer is what is printed and the exit code: 0 when all went
well, 1 for a failure, 2 for a command line that asks for nothing.
-/

namespace Publication.CommandLine

/-- What comes of a command line. -/
structure Reply where
  exit : Nat
  output : String := ""
  complaint : Option String := none
deriving Repr, DecidableEq

/-- Lines, each with its line feed. -/
def textOf (lines : List String) : String := String.join (lines.map (· ++ "\n"))

/-- The reply of a command that did what it was to do. -/
def done (lines : List String) : Reply := ⟨0, textOf lines, none⟩

def failed (message : String) : Reply := ⟨1, "", some message⟩

/-- The version of the program. -/
def version : String := "pubgen 0.4.0"

/-- How the program is used. -/
def help : List String := [
  "Compile markdown publications with embedded LaTeX",
  "",
  "Usage: pubgen compile [--no-thumbnail] [--config <CONFIG>] <INPUT> [OUTPUT]",
  "       pubgen merge-meta <CATALOG> <META>",
  "       pubgen rm-meta <CATALOG> <URL>",
  "       pubgen gen-config"]

/-- The reply to a build. One that left something out is reported, but fails. -/
def replyOf : Except BuildFailure Build → Reply
  | .ok build => done build.report
  | .error (.incomplete build) =>
      ⟨1, textOf build.report, some (BuildFailure.incomplete build).message⟩
  | .error failure => failed failure.message

/-- The words for what is wrong with a catalog or a record. -/
def catalogMessage : Catalog.Error → String
  | .file e => "IO error: " ++ e.message
  | .text (.mismatch m) => "JSON error: " ++ Json.mismatchText m
  | .text _ => "JSON error"

/-- Writes a catalog, and replies with the lines about its change. -/
def saved (fs : FileSystem) (catalog : Catalog) (path : Path) (lines : List String) :
    Reply × FileSystem :=
  match Catalog.save catalog path fs with
  | (.ok (), fs) => (done lines, fs)
  | (.error e, fs) => (failed ("IO error: " ++ e.message), fs)

/-- Merges the record in a file into the catalog in another one. The record is read first. -/
def mergeRecord (fs : FileSystem) (path recordPath : Path) : Reply × FileSystem :=
  match Catalog.readRecord fs recordPath with
  | .error e => (failed (catalogMessage e), fs)
  | .ok record =>
      match Catalog.load fs path with
      | .error e => (failed (catalogMessage e), fs)
      | .ok catalog =>
          let catalog := catalog.merge record
          saved fs catalog path
            (Catalog.report .merged record.url path catalog.entries.length)

/-- Removes the records with a url from the catalog in a file, which is only written if there are
any. -/
def removeRecord (fs : FileSystem) (path : Path) (url : String) : Reply × FileSystem :=
  match Catalog.load fs path with
  | .error e => (failed (catalogMessage e), fs)
  | .ok catalog =>
      let (removed, rest) := catalog.withdraw url
      if removed then saved fs rest path (Catalog.report .removed url path rest.entries.length)
      else (done (Catalog.report .notFound url path rest.entries.length), fs)

section

variable [Transliteration] [Image.Scaler] (launch : Launcher)

/-- Does what is asked for. -/
def perform (fs : FileSystem) : Invocation → Reply × FileSystem
  | .compile input output options =>
      let renderer := fun config : Config => Latex.toolchain launch config.latex
      let (result, bench) := requireComplete (build renderer input output options) ⟨fs, []⟩
      (replyOf result, bench.files)
  | .mergeRecord catalog record => mergeRecord fs catalog record
  | .removeRecord catalog url => removeRecord fs catalog url
  | .showSettings => (⟨0, Config.stockText, none⟩, fs)
  | .showVersion => (done [version], fs)
  | .showHelp => (done help, fs)

/-- Does what a command line asks for. -/
def respond (fs : FileSystem) (arguments : List String) : Reply × FileSystem :=
  match parse arguments with
  | .ok invocation => perform launch fs invocation
  | .error e => (⟨2, "", some e.message⟩, fs)

end

end Publication.CommandLine
