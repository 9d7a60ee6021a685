import Publication.Shell.Condition
import Publication.Shell.Printing
import Publication.Text.Lines

/-!
The tools that scripts call by name: they print, compare, and copy, remove and search files.
-/

namespace Publication.Shell

open Publication.Text

/-- What a tool did. -/
structure Outcome where
  files : FileSystem
  status : Nat := 0
  output : List UInt8 := []
  diagnostics : List UInt8 := []

namespace Outcome

/-- Something is printed behind what was printed before. -/
def print (outcome : Outcome) (bytes : List UInt8) : Outcome :=
  { outcome with output := outcome.output ++ bytes }

/-- Something went wrong, but the tool goes on. -/
def complain (outcome : Outcome) (status : Nat) (line : String) : Outcome :=
  { outcome with
    status := status, diagnostics := outcome.diagnostics ++ utf8 (line ++ "\n") }

/-- An operation on files, or a complaint about why it failed. -/
def attempt (outcome : Outcome) (operation : FileSystem → Except FileError FileSystem)
    (line : FileError → String) : Outcome :=
  match operation outcome.files with
  | .ok files => { outcome with files := files }
  | .error e => outcome.complain 1 (line e)

end Outcome

/-- Options, which begin with a dash, and the arguments behind them. -/
def options : List String → List Char × List String
  | [] => ([], [])
  | argument :: rest =>
      match argument.toList with
      | ['-', '-'] => ([], rest)
      | '-' :: c :: more =>
          let (letters, rest) := options rest
          (c :: more ++ letters, rest)
      | _ => ([], argument :: rest)

def inQuotes (text : String) : String := "'" ++ text ++ "'"

/-- Where a file goes that is copied or moved to a path: into it, if it is a directory. -/
def goalOf (fs : FileSystem) (source goal : Path) : Path :=
  if fs.isDirectory goal then goal.child source.publishedName else goal

/-- Whether two paths lead to one place. -/
def isSamePlace (fs : FileSystem) (a b : Path) : Bool :=
  match fs.locate a, fs.locate b with
  | .ok p, .ok q => p == q
  | _, _ => false

/-- Copies everything below a place, and what is there itself, to another place. -/
def copyTree (fs : FileSystem) (source goal : Location) : FileSystem :=
  ((fs.entries.filter fun (l, _) => source.isPrefixOf l).foldl
    (fun (fs : FileSystem) (l, entry) => fs.put (goal ++ l.drop source.length) entry) fs)

/-- Copies a file, or a directory if that is wanted, to a path. -/
def copyTo (name : String) (deep : Bool) (goal : Path) (outcome : Outcome) (source : String) :
    Outcome :=
  let fs := outcome.files
  let target := goalOf fs ⟨source⟩ goal
  match fs.at? ⟨source⟩ with
  | .error e => outcome.complain 1 (name ++ ": cannot stat " ++ inQuotes source ++ ": " ++ e.reason)
  | .ok .directory =>
      if deep then
        outcome.attempt
          (fun fs => do return copyTree fs (← fs.locate ⟨source⟩) (← fs.locate target))
          fun e => name ++ ": cannot create directory " ++ inQuotes target.text ++ ": " ++ e.reason
      else outcome.complain 1 (name ++ ": -r not specified; omitting directory " ++ inQuotes source)
  | .ok (.file _ _) =>
      if isSamePlace fs ⟨source⟩ target then
        outcome.complain 1 (name ++ ": " ++ inQuotes source ++ " and " ++ inQuotes target.text
          ++ " are the same file")
      else
        outcome.attempt (fun fs => fs.copy ⟨source⟩ target) fun e =>
          name ++ ": cannot create regular file " ++ inQuotes target.text ++ ": " ++ e.reason

/-- Copies or moves files to a path. -/
def transfer (name : String) (moves : Bool) (fs : FileSystem) (arguments : List String) : Outcome :=
  let (letters, paths) := options arguments
  let deep := moves || letters.any (· ∈ ['r', 'R', 'a'])
  match paths.reverse with
  | [] => Outcome.complain ⟨fs, 0, [], []⟩ 1 (name ++ ": missing file operand")
  | [only] =>
      Outcome.complain ⟨fs, 0, [], []⟩ 1
        (name ++ ": missing destination file operand after " ++ inQuotes only)
  | goal :: sources =>
      sources.reverse.foldl (fun outcome source =>
        let copied := copyTo name deep ⟨goal⟩ outcome source
        if moves && copied.diagnostics.length = outcome.diagnostics.length then
          copied.attempt (fun fs => fs.remove ⟨source⟩) fun e => name ++ ": " ++ e.reason
        else copied) ⟨fs, 0, [], []⟩

/-- Removes files, and directories if that is wanted. -/
def removeAll (fs : FileSystem) (arguments : List String) : Outcome :=
  let (letters, paths) := options arguments
  let deep := letters.any (· ∈ ['r', 'R'])
  paths.foldl (fun outcome path =>
    let refuse (e : FileError) := "rm: cannot remove " ++ inQuotes path ++ ": " ++ e.reason
    if letters.contains 'f' && !outcome.files.isPresent ⟨path⟩ then outcome
    else if !deep && outcome.files.isDirectory ⟨path⟩ then outcome.complain 1 (refuse .isDirectory)
    else outcome.attempt (fun fs => fs.remove ⟨path⟩) refuse) ⟨fs, 0, [], []⟩

/-- Makes directories, with those that they are to be in if that is wanted. -/
def makeAll (fs : FileSystem) (arguments : List String) : Outcome :=
  let (letters, paths) := options arguments
  paths.foldl (fun outcome path =>
    let make (fs : FileSystem) : Except FileError FileSystem :=
      if letters.contains 'p' then
        match FileSystem.makeDirectories ⟨path⟩ fs with
        | (.ok (), fs) => .ok fs
        | (.error e, _) => .error e
      else fs.makeDirectory ⟨path⟩
    outcome.attempt make fun e =>
      "mkdir: cannot create directory " ++ inQuotes path ++ ": " ++ e.reason) ⟨fs, 0, [], []⟩

/-- Makes empty files where there is nothing. -/
def touchAll (fs : FileSystem) (arguments : List String) : Outcome :=
  (options arguments).2.foldl (fun outcome path =>
    if outcome.files.isPresent ⟨path⟩ then outcome
    else outcome.attempt (fun fs => fs.write ⟨path⟩ []) fun e =>
      "touch: cannot touch " ++ inQuotes path ++ ": " ++ e.reason) ⟨fs, 0, [], []⟩

def contents (name : String) (input : List UInt8) (fs : FileSystem) (paths : List String) :
    Outcome :=
  if paths.isEmpty then ⟨fs, 0, input, []⟩
  else paths.foldl (fun outcome path =>
    match fs.read ⟨path⟩ with
    | .ok bytes => outcome.print bytes
    | .error e => outcome.complain 1 (name ++ ": " ++ path ++ ": " ++ e.reason)) ⟨fs, 0, [], []⟩

/-- Octets cut behind their line feeds. -/
def byteLines (bytes : List UInt8) : List (List UInt8) :=
  bytes.foldr (fun b lines =>
    if b = 10 then [10] :: lines
    else
      match lines with
      | line :: rest => (b :: line) :: rest
      | [] => [[b]]) []

/-- A place in a regular expression: what it matches, and whether any number of times. -/
structure Atom where
  accepts : Char → Bool
  repeats : Bool

/-- The atoms of a regular expression. The fuel bounds its length. -/
def atoms : Nat → List Char → List Atom
  | 0, _ => []
  | _ + 1, [] => []
  | fuel + 1, c :: rest =>
      let (accepts, rest) : (Char → Bool) × List Char := match c, rest with
        | '\\', d :: rest => ((· == d), rest)
        | '.', rest => (fun _ => true, rest)
        | c, rest => ((· == c), rest)
      match rest with
      | '*' :: rest => ⟨accepts, true⟩ :: atoms fuel rest
      | rest => ⟨accepts, false⟩ :: atoms fuel rest

/-- Whether the beginning of a text, or all of it, is matched. -/
def startsWith (whole : Bool) : List Atom → List Char → Bool
  | [], text => !whole || text.isEmpty
  | atom :: rest, text =>
      if atom.repeats then
        (List.range ((text.takeWhile atom.accepts).length + 1)).any fun n =>
          startsWith whole rest (text.drop n)
      else
        match text with
        | c :: text => atom.accepts c && startsWith whole rest text
        | [] => false

/-- Whether a regular expression is found in a line. -/
def isFound (expression line : List Char) : Bool :=
  let (fromStart, expression) := match expression with
    | '^' :: rest => (true, rest)
    | expression => (false, expression)
  let (toEnd, expression) := match expression.reverse with
    | '$' :: before => (true, before.reverse)
    | _ => (false, expression)
  let found := atoms (expression.length + 1) expression
  if fromStart then startsWith toEnd found line
  else (List.range (line.length + 1)).any fun n => startsWith toEnd found (line.drop n)

/-- Prints or counts the lines of files in which an expression is found. -/
def search (input : List UInt8) (fs : FileSystem) (arguments : List String) : Outcome :=
  let (letters, operands) := options arguments
  match operands with
  | [] => ⟨fs, 2, [], utf8 "Usage: grep [OPTION]... PATTERNS [FILE]...\n"⟩
  | expression :: paths =>
      let pattern := if letters.contains 'F' then expression.toList.flatMap fun c => ['\\', c]
        else expression.toList
      let keeps (line : List UInt8) : Bool :=
        let text := withoutFeed (ofUtf8Lossy line)
        let found := if letters.contains 'i' then
          isFound (pattern.map Char.toLower) (text.map Char.toLower) else isFound pattern text
        found != letters.contains 'v'
      let label (path : String) : List UInt8 := if paths.length ≤ 1 then [] else utf8 (path ++ ":")
      let show' (path : String) (bytes : List UInt8) (outcome : Outcome × Bool) : Outcome × Bool :=
        let kept := (byteLines bytes).filter keeps
        let lines := if letters.contains 'q' then []
          else if letters.contains 'c' then label path ++ utf8 (toString kept.length ++ "\n")
          else kept.flatMap fun line =>
            label path ++ line ++ if line.getLast? = some 10 then [] else [10]
        (outcome.1.print lines, outcome.2 || !kept.isEmpty)
      let start : Outcome × Bool := (⟨fs, 0, [], []⟩, false)
      let (outcome, found) := if paths.isEmpty then show' "(standard input)" input start
        else paths.foldl (fun state path =>
          match fs.read ⟨path⟩ with
          | .ok bytes => show' path bytes state
          | .error e =>
              (state.1.complain 2 ("grep: " ++ path ++ ": " ++ e.reason), state.2)) start
      if outcome.status = 0 && !found then { outcome with status := 1 } else outcome

/-- The first or the last lines of files. -/
def someLines (name : String) (choose : Nat → List (List UInt8) → List (List UInt8))
    (input : List UInt8) (fs : FileSystem) (arguments : List String) : Outcome :=
  let (count, paths) := match arguments with
    | "-n" :: n :: paths => (n.toNat?.getD 10, paths)
    | argument :: paths =>
        match argument.toList with
        | '-' :: 'n' :: digits | '-' :: digits =>
            ((String.ofList digits).toNat?.getD 10, paths)
        | _ => (10, argument :: paths)
    | [] => (10, [])
  let outcome := contents name input fs paths
  { outcome with output := (choose count (byteLines outcome.output)).flatten }

/-- The number of lines or octets of the input or of one file. -/
def countAll (input : List UInt8) (fs : FileSystem) (arguments : List String) : Outcome :=
  let (letters, paths) := options arguments
  let outcome := contents "wc" input fs paths
  let count := if letters.contains 'c' then outcome.output.length
    else (outcome.output.filter (· = 10)).length
  let label := match paths with
    | [path] => " " ++ path
    | _ => ""
  { outcome with output := utf8 (toString count ++ label ++ "\n") }

/-- A tool by its name, given the input, the files and the arguments. -/
def tool? : String → Option (List UInt8 → FileSystem → List String → Outcome)
  | "true" | ":" | "sleep" => some fun _ fs _ => ⟨fs, 0, [], []⟩
  | "false" => some fun _ fs _ => ⟨fs, 1, [], []⟩
  | "echo" => some fun _ fs arguments => ⟨fs, 0, echo arguments, []⟩
  | "printf" => some fun _ fs arguments => ⟨fs, 0, printf arguments, []⟩
  | "pwd" => some fun _ fs _ => ⟨fs, 0, utf8 ("/" ++ String.intercalate "/" fs.here ++ "\n"), []⟩
  | "basename" => some fun _ fs arguments =>
      let name := (Path.fileName? ⟨arguments.headD ""⟩).getD (arguments.headD "")
      let ending := (arguments.drop 1).headD ""
      let bare := (stripEnd? ending.toList name.toList).getD name.toList
      ⟨fs, 0, utf8 (String.ofList (if bare.isEmpty then name.toList else bare) ++ "\n"), []⟩
  | "dirname" => some fun _ fs arguments =>
      ⟨fs, 0, utf8 ((Path.directory ⟨arguments.headD ""⟩).text ++ "\n"), []⟩
  | "cp" => some fun _ fs arguments => transfer "cp" false fs arguments
  | "mv" => some fun _ fs arguments => transfer "mv" true fs arguments
  | "rm" => some fun _ fs arguments => removeAll fs arguments
  | "mkdir" => some fun _ fs arguments => makeAll fs arguments
  | "touch" => some fun _ fs arguments => touchAll fs arguments
  | "cat" => some fun input fs arguments => contents "cat" input fs (options arguments).2
  | "grep" => some search
  | "head" => some (someLines "head" List.take)
  | "tail" => some (someLines "tail" fun n lines => lines.drop (lines.length - n))
  | "wc" => some countAll
  | "test" => some fun _ fs arguments => verdict fs arguments
  | "[" => some fun _ fs arguments =>
      if arguments.getLast? = some "]" then verdict fs arguments.dropLast
      else ⟨fs, 2, [], utf8 "[: missing ]\n"⟩
  | _ => none
where
  verdict (fs : FileSystem) (arguments : List String) : Outcome :=
    match condition fs arguments with
    | some holds => ⟨fs, if holds then 0 else 1, [], []⟩
    | none => ⟨fs, 2, [], utf8 "test: bad condition\n"⟩

end Publication.Shell
