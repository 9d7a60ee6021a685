import Publication.Config.Basic
import Publication.Latex.Renderer
import Publication.Text.Lines

/-!
The renderer that starts the programs of the settings. What a program prints goes to a log in the
scratch directory; the end of it is shown if the program fails. How a program is started is taken
from outside.
-/

namespace Publication.Latex

open Publication.Text

def shownLines : Nat := 20

/-- The last lines of a log, without their breaks. -/
def logEnd (bytes : List UInt8) : String :=
  let all := (lines (ofUtf8Lossy bytes)).map withoutBreak
  String.ofList (List.intercalate ['\n'] (all.drop (all.length - shownLines)))

/-- The tree seen from a directory. -/
def enter (fs : FileSystem) (dir : Path) : Except FileError FileSystem :=
  match fs.locate dir with
  | .error e => .error e
  | .ok place =>
      match fs.entry? place with
      | some .directory => .ok { fs with here := place }
      | some _ => .error .notDirectory
      | none => .error .notFound

/-- Puts what a program printed into its log, unless the log has been removed. -/
def keepLog (fs : FileSystem) (log : Path) (bytes : List UInt8) : FileSystem :=
  if fs.isFile log then
    match fs.write log bytes with
    | .ok fs => fs
    | .error _ => fs
  else fs

/-- What the end of a program means for the job. The log that was removed shows nothing. -/
def verdict (fs : FileSystem) (program : String) (seconds : Nat) (log : Path)
    (status : Option ExitStatus) : Except RenderError Unit :=
  match status with
  | none => .error (.timedOut program seconds)
  | some status =>
      if status.succeeded then .ok ()
      else .error (.failed program status (logEnd ((fs.read log).toOption.getD [])))

/-- Runs a program in a directory, if one is given, with a log. -/
def runTool (launch : Launcher) (program : String) (arguments : List String) (seconds : Nat)
    (dir : Option Path) (log : Path) (fs : FileSystem) : Except RenderError Unit × FileSystem :=
  match fs.write log [] with
  | .error e => (.error (.file e), fs)
  | .ok fs =>
      match (match dir with
        | some dir => enter fs dir
        | none => .ok fs) with
      | .error e => (.error (.unstarted program e), fs)
      | .ok inside =>
          match launch inside program arguments with
          | .error e => (.error (.unstarted program e), fs)
          | .ok launched =>
              let fs := keepLog { launched.files with here := fs.here } log launched.log
              (verdict fs program seconds log launched.status, fs)

/-- The renderer that starts the programs of the settings. -/
def toolchain (launch : Launcher) (settings : LatexSettings) : Renderer where
  typeset := fun _ job fs =>
    runTool launch settings.typesetter
      (settings.typesetArgs ++ ["-output-directory", job.outputDir.text, job.source.text])
      settings.timeout (some job.workingDir) (job.outputDir.child "typeset.log") fs
  rasterize := fun _ job fs =>
    runTool launch settings.rasterizer
      ["-density", toString settings.density, job.pdf.text, "-resize", settings.resize,
        job.png.text]
      settings.timeout none (job.logDir.child "rasterize.log") fs

end Publication.Latex
