import Publication.Program
import Publication.Shell.Expansion
import Publication.Shell.Parser
import Publication.Shell.Tool

/-!
Running a script. What it does is a function of the files, its arguments and its input; fuel bounds
the number of steps, so a script that does not end is told from one that does.
-/

namespace Publication.Shell

open Publication.Text

/-- Where what a command prints goes. -/
inductive Sink where
  /-- The log of the program that was started. -/
  | log
  /-- What is printed for another command. -/
  | kept
  | file (place : Location)
  | nowhere
deriving Repr, DecidableEq

/-- The input of a command, and where its output and its diagnostics go. -/
structure Streams where
  input : List UInt8 := []
  output : Sink := .log
  diagnostics : Sink := .log

/-- What a script works on. -/
structure State where
  files : FileSystem
  scope : Scope
  functions : List (String × Command) := []
  exported : List String := []
  /-- A command that fails ends the script. -/
  strict : Bool := false
  log : List UInt8 := []
  kept : List UInt8 := []

/-- How a script goes on behind a command. -/
inductive Flow where
  | next
  /-- So many loops are left. -/
  | left (loops : Nat)
  /-- So many loops less one are left, and the last one goes on. -/
  | again (loops : Nat)
  | returned
  | exited
  | killed (signal : Nat)
  | endless
deriving Repr, DecidableEq

namespace State

/-- How the last command ended. -/
def status (s : State) : Nat := s.scope.status

/-- Notes how a command ended. -/
def ended (s : State) (status : Nat) : State :=
  { s with scope := { s.scope with status := status } }

/-- Prints something. -/
def print (s : State) (sink : Sink) (bytes : List UInt8) : State :=
  match sink with
  | .log => { s with log := s.log ++ bytes }
  | .kept => { s with kept := s.kept ++ bytes }
  | .nowhere => s
  | .file place =>
      match s.files.entry? place with
      | some (.file old executable) =>
          { s with files := s.files.put place (.file (old ++ bytes) executable) }
      | _ => s

/-- Gives a variable a value. -/
def assign (s : State) (name value : String) : State :=
  { s with scope := s.scope.assign name value }

/-- What a tool did. -/
def absorb (s : State) (streams : Streams) (outcome : Outcome) : State :=
  (({ s with files := outcome.files }.print streams.output outcome.output).print
    streams.diagnostics outcome.diagnostics).ended outcome.status

/-- A complaint of the shell about a command on a line. -/
def complain (s : State) (streams : Streams) (line : Nat) (text : String) (status : Nat) : State :=
  (s.print streams.diagnostics
    (utf8 (s.scope.script ++ ": " ++ toString line ++ ": " ++ text ++ "\n"))).ended status

/-- Takes over from a shell of its own what lasts beyond it. -/
def after (s inner : State) : State :=
  { s with
    files := { inner.files with here := s.files.here }, log := inner.log, kept := inner.kept
    scope := { s.scope with status := inner.status } }

end State

/-- A script that ended for its caller: what it does beyond its end does not go on there. -/
def Flow.contained : Flow → Flow
  | .killed signal => .killed signal
  | .endless => .endless
  | _ => .next

/-- A flow that a loop takes over: whether the loop goes on, or what is left of the flow. -/
def Flow.inLoop : Flow → Except Flow Unit
  | .next => .ok ()
  | .again n => if n ≤ 1 then .ok () else .error (.again (n - 1))
  | .left n => .error (if n ≤ 1 then .next else .left (n - 1))
  | flow => .error flow

/-- Something that prints a text, with what else it does. -/
abbrev Printer := String → State → String × State

/-- Puts the values of pieces into fields. -/
def expandInto (printer : Printer) : Word → Fields → State → Fields × State
  | [], fields, s => (fields, s)
  | .literal text quoted :: rest, fields, s =>
      expandInto printer rest
        (if quoted || !text.isEmpty then fields.join text else fields) s
  | .parameter "@" .whole true :: rest, fields, s =>
      expandInto printer rest (fields.spread s.scope.arguments) s
  | .parameter name selection quoted :: rest, fields, s =>
      expandInto printer rest (place quoted (s.scope.select name selection) fields) s
  | .arithmetic expression quoted :: rest, fields, s =>
      let value := toString ((s.scope.arithmetic? expression).getD 0)
      expandInto printer rest (place quoted value fields) s
  | .printed script quoted :: rest, fields, s =>
      let (value, s) := printer script s
      expandInto printer rest (place quoted value fields) s

/-- The fields of words. -/
def expandAll (printer : Printer) : List Word → State → List String × State
  | [], s => ([], s)
  | word :: rest, s =>
      let (fields, s) := expandInto printer word {} s
      let (more, s) := expandAll printer rest s
      (fields.all ++ more, s)

/-- The text of a word that is not split. -/
def expandWhole (printer : Printer) (word : Word) (s : State) : String × State :=
  let whole : Word := word.map fun
    | .literal text _ => .literal text true
    | .parameter "@" selection _ => .parameter "*" selection true
    | .parameter name selection _ => .parameter name selection true
    | .arithmetic expression _ => .arithmetic expression true
    | .printed script _ => .printed script true
  let (fields, s) := expandInto printer whole {} s
  (fields.current.getD "", s)

def expandPattern (printer : Printer) : Word → State → List Char × State
  | [], s => ([], s)
  | piece :: rest, s =>
      let quoted := match piece with
        | .literal _ quoted | .parameter _ _ quoted | .arithmetic _ quoted | .printed _ quoted =>
            quoted
      let (value, s) := expandWhole printer [piece] s
      let (more, s) := expandPattern printer rest s
      (asPattern quoted value ++ more, s)

/-- Whether a text matches one of several patterns. -/
def matchesAny (printer : Printer) (text : String) : List Word → State → Bool × State
  | [], s => (false, s)
  | word :: rest, s =>
      let (pattern, s) := expandPattern printer word s
      if isMatch pattern text.toList then (true, s) else matchesAny printer text rest s

/-- Leads a stream somewhere else. -/
def Streams.lead (streams : Streams) (stream : Nat) (sink : Sink) : Streams :=
  if stream = 1 then { streams with output := sink }
  else if stream = 2 then { streams with diagnostics := sink }
  else streams

def openSink (s : State) (path : String) (append : Bool) : Except FileError (Sink × State) :=
  if path = "/dev/null" then .ok (.nowhere, s)
  else
    match s.files.target ⟨path⟩ with
    | .error e => .error e
    | .ok place =>
        let old := match s.files.entry? place with
          | some (.file bytes _) => bytes
          | _ => []
        let entry := Entry.file (if append then old else []) (s.files.isExecutable place)
        .ok (.file place, { s with files := s.files.put place entry })

/-- How the shell tells why a file was not opened. -/
def openError (verb path : String) (e : FileError) : String :=
  let reason := match e with
    | .notFound => if verb = "create" then "Directory nonexistent" else "No such file"
    | e => e.reason
  "cannot " ++ verb ++ " " ++ path ++ ": " ++ reason

/-- Lays redirections over streams, or says why that fails. -/
def redirect (printer : Printer) : List Redirection → Streams → State →
    Except String Streams × State
  | [], streams, s => (.ok streams, s)
  | ⟨stream, target⟩ :: rest, streams, s =>
      match target with
      | .input word =>
          let (path, s) := expandWhole printer word s
          if path = "/dev/null" then redirect printer rest { streams with input := [] } s
          else
            match s.files.read ⟨path⟩ with
            | .ok bytes => redirect printer rest { streams with input := bytes } s
            | .error e => (.error (openError "open" path e), s)
      | .output word append =>
          let (path, s) := expandWhole printer word s
          match openSink s path append with
          | .ok (sink, s) => redirect printer rest (streams.lead stream sink) s
          | .error e => (.error (openError "create" path e), s)
      | .stream word =>
          let (number, s) := expandWhole printer word s
          let sink := if number = "1" then streams.output
            else if number = "2" then streams.diagnostics else .nowhere
          redirect printer rest (streams.lead stream sink) s

def signalNumber? (name : String) : Option Nat :=
  match name.toNat? with
  | some n => some n
  | none =>
      let full := if name.startsWith "SIG" then name else "SIG" ++ name
      (ExitStatus.signalNames.findIdx? (· = full)).map (· + 1)

/-- The signal that a `kill` sends to the script itself. -/
def ownSignal? (arguments : List String) : Option Nat :=
  match arguments with
  | ["-s", name, pid] => if pid = Scope.self then signalNumber? name else none
  | [name, pid] =>
      if pid = Scope.self && name.startsWith "-" then signalNumber? (name.drop 1).toString else none
  | [pid] => if pid = Scope.self then some 15 else none
  | _ => none

/-- The first argument as a number. -/
def numberOf (arguments : List String) (default : Nat) : Nat :=
  match arguments with
  | n :: _ => n.toNat?.getD default
  | [] => default

/-- A command of the shell itself, which changes how the script goes on or what it works on. -/
def control? (name : String) (arguments : List String) (s : State) : Option (Flow × State) :=
  match name with
  | "exit" => some (.exited, s.ended (numberOf arguments s.status % 256))
  | "return" => some (.returned, s.ended (numberOf arguments s.status % 256))
  | "break" => some (.left (numberOf arguments 1), s.ended 0)
  | "continue" => some (.again (numberOf arguments 1), s.ended 0)
  | "shift" =>
      let n := numberOf arguments 1
      if s.scope.arguments.length < n then some (.exited, s.ended 2)
      else
        some (.next,
          { s with scope := { s.scope with arguments := s.scope.arguments.drop n, status := 0 } })
  | "set" =>
      match arguments with
      | ["-e"] => some (.next, { s with strict := true }.ended 0)
      | ["+e"] => some (.next, { s with strict := false }.ended 0)
      | "--" :: rest =>
          some (.next, { s with scope := { s.scope with arguments := rest, status := 0 } })
      | _ => some (.next, s.ended 0)
  | "cd" =>
      match s.files.locate ⟨arguments.headD "/"⟩ with
      | .ok place =>
          if s.files.entry? place = some .directory then
            some (.next, { s with files := { s.files with here := place } }.ended 0)
          else some (.next, s.ended 2)
      | .error _ => some (.next, s.ended 2)
  | "export" | "readonly" | "local" =>
      some (.next, (arguments.foldl (fun (s : State) argument =>
        let name := String.ofList (argument.toList.takeWhile (· ≠ '='))
        let s := match argument.toList.dropWhile (· ≠ '=') with
          | _ :: value => s.assign name (String.ofList value)
          | [] => s
        { s with exported := name :: s.exported }) s).ended 0)
  | "unset" =>
      some (.next, (arguments.foldl (fun (s : State) name =>
        { s with scope := s.scope.forget name }) s).ended 0)
  | "umask" | "trap" | "wait" | "ulimit" => some (.next, s.ended 0)
  | "kill" =>
      match ownSignal? arguments with
      | some 0 => some (.next, s.ended 0)
      | some signal => some (.killed signal, s)
      | none => some (.next, s.ended 1)
  | _ => none

/-- A program to start: a tool, or a script with its text. -/
inductive Program where
  | tool (run : List UInt8 → FileSystem → List String → Outcome)
  | script (text : List Char)
  | shell

def shellNames : List String := ["sh", "dash", "bash"]

def toolDirectories : List String := ["/bin", "/usr/bin"]

/-- The program that goes by a name among the tools. -/
def installed? (name : String) : Option Program :=
  if name ∈ shellNames then some .shell else (tool? name).map .tool

/-- The program that reads a file, by the first line of the file. -/
def interpreter? (text : List Char) : Option (List (List Char)) :=
  match text with
  | '#' :: '!' :: rest => some (words (rest.takeWhile (· ≠ '\n')))
  | _ => none

def programIn (bytes : List UInt8) : Except FileError Program :=
  let text := ofUtf8Lossy bytes
  match interpreter? text with
  | some (path :: arguments) =>
      let name (path : List Char) := Path.publishedName ⟨String.ofList path⟩
      let reader := if name path = "env" then name (arguments.headD []) else name path
      if reader ∈ shellNames then .ok (.script text)
      else
        match tool? reader with
        | some run => .ok (.tool run)
        | none => .error .notFound
  | _ => .error .notRunnable

def find (fs : FileSystem) (name : String) : Except FileError Program :=
  let path : Path := ⟨name⟩
  if !name.toList.contains '/' then
    match installed? name with
    | some program => .ok program
    | none => .error .notFound
  else
    match fs.at? path with
    | .ok (.file bytes true) => programIn bytes
    | .ok _ => .error .notPermitted
    | .error e =>
        if path.directory.text ∈ toolDirectories then
          match installed? path.publishedName with
          | some program => .ok program
          | none => .error e
        else .error e

/-- The script that a shell is given by its arguments, with its name and arguments. -/
def scriptOf? (fs : FileSystem) (arguments : List String) :
    Option (List Char × String × List String) :=
  match arguments with
  | "-c" :: text :: rest => some (text.toList, rest.headD "sh", rest.drop 1)
  | "-e" :: path :: rest | path :: rest =>
      match fs.read ⟨path⟩ with
      | .ok bytes => some (ofUtf8Lossy bytes, path, rest)
      | .error _ => none
  | [] => some ([], "sh", [])

/-- Ends the script behind a command that failed, where that is wanted. -/
def checked (tested : Bool) (flow : Flow) (s : State) : Flow × State :=
  if s.strict && !tested && flow = .next && s.status ≠ 0 then (.exited, s) else (flow, s)

/-- The text that a command printed, without the line feeds at its end. -/
def printedText (bytes : List UInt8) : String :=
  String.ofList ((ofUtf8Lossy bytes).reverse.dropWhile (· = '\n')).reverse

/-- Runs a command. `tested` says that its failure is looked at by what is around it. -/
def run : Nat → Bool → Streams → Command → State → Flow × State
  | 0, _, _, _, s => (.endless, s)
  | fuel + 1, tested, streams, command, s =>
      let printer : Printer := fun script s =>
        match parse? script.toList with
        | none => ("", s.ended 2)
        | some inner =>
            let (_, done) :=
              run fuel false { streams with output := .kept } inner { s with kept := [] }
            (printedText done.kept, s.after { done with kept := s.kept })
      let start (text : List Char) (name : String) (arguments : List String)
          (bindings : List (String × String)) (s : State) : Flow × State :=
        match parse? text with
        | none => (.next, s.ended 2)
        | some inner =>
            let scope : Scope := { script := name, arguments := arguments, bindings := bindings }
            let fresh : State :=
              { files := s.files, scope := scope, log := s.log, kept := s.kept }
            match run fuel false streams inner fresh with
            | (.endless, done) => (.endless, done)
            | (.killed signal, done) => (.next, (s.after done).ended (128 + signal))
            | (_, done) => (.next, s.after done)
      let perform (line : Nat) (streams : Streams) (bindings : List (String × String))
          (name : String) (arguments : List String) (s : State) : Flow × State :=
        match s.functions.find? (·.1 = name) with
        | some (_, body) =>
            let old := s.scope.arguments
            let (flow, done) :=
              run fuel tested streams body
                { s with scope := { s.scope with arguments := arguments } }
            (if flow = .returned then .next else flow,
              { done with scope := { done.scope with arguments := old } })
        | none =>
            match control? name arguments s with
            | some result => result
            | none =>
                match find s.files name with
                | .ok (.tool tool) =>
                    (.next, s.absorb streams (tool streams.input s.files arguments))
                | .ok (.script text) => start text name arguments bindings s
                | .ok .shell =>
                    match scriptOf? s.files arguments with
                    | some (text, name, rest) => start text name rest bindings s
                    | none => (.next, s.complain streams 0 ("cannot open " ++ arguments.headD "") 2)
                | .error .notPermitted =>
                    (.next, s.complain streams line (name ++ ": Permission denied") 126)
                | .error _ => (.next, s.complain streams line (name ++ ": not found") 127)
      match command with
      | .nothing => (.next, s)
      | .simple line assignments words redirections =>
          let (fields, s) := expandAll printer words (s.ended s.status)
          match redirect printer redirections streams s with
          | (.error text, s) => checked tested .next (s.complain streams line text 2)
          | (.ok streams, s) =>
              let (values, s) := assignments.foldl (fun (values, s) (name, word) =>
                let (value, s) := expandWhole printer word s
                ((name, value) :: values, if fields.isEmpty then s.assign name value else s))
                ([], s)
              match fields with
              | [] =>
                  let substitutes := (assignments.map (·.2)).flatten.any fun
                    | .printed _ _ => true
                    | _ => false
                  (.next, if substitutes then s else s.ended 0)
              | "exec" :: name :: arguments =>
                  let (flow, s) := perform line streams values name arguments s
                  (if flow = .next then .exited else flow, s)
              | name :: arguments =>
                  let shared := s.scope.bindings.filter fun (name, _) => s.exported.contains name
                  let (flow, s) := perform line streams (values ++ shared) name arguments s
                  checked tested flow s
      | .sequence first second =>
          match run fuel tested streams first s with
          | (.next, s) => run fuel tested streams second s
          | stopped => stopped
      | .both first second =>
          match run fuel true streams first s with
          | (.next, s) => if s.status = 0 then run fuel tested streams second s else (.next, s)
          | stopped => stopped
      | .either first second =>
          match run fuel true streams first s with
          | (.next, s) => if s.status = 0 then (.next, s) else run fuel tested streams second s
          | stopped => stopped
      | .inverse inner =>
          match run fuel true streams inner s with
          | (.next, s) => (.next, s.ended (if s.status = 0 then 1 else 0))
          | stopped => stopped
      | .pipe first second =>
          match run fuel true { streams with output := .kept } first { s with kept := [] } with
          | (.endless, done) => (.endless, done)
          | (_, done) =>
              let s' := s.after { done with kept := s.kept }
              match run fuel tested { streams with input := done.kept } second s' with
              | (.endless, done) => (.endless, done)
              | (flow, done) => (flow.contained, s.after done)
      | .choice condition yes no =>
          match run fuel true streams condition s with
          | (.next, s) =>
              if s.status = 0 then run fuel tested streams yes s
              else run fuel tested streams no (s.ended 0)
          | stopped => stopped
      | .loop negated condition body =>
          match run fuel true streams condition s with
          | (.next, s) =>
              if (s.status == 0) == negated then (.next, s.ended 0)
              else
                let (flow, s) := run fuel tested streams body s
                match flow.inLoop with
                | .ok () => run fuel tested streams (.loop negated condition body) s
                | .error flow => (flow, s)
          | stopped => stopped
      | .each name words body =>
          let (fields, s) := expandAll printer words s
          match fields with
          | [] => (.next, s.ended 0)
          | field :: rest =>
              let (flow, s) := run fuel tested streams body (s.assign name field)
              match flow.inLoop with
              | .error flow => (flow, s)
              | .ok () =>
                  if rest.isEmpty then (.next, s)
                  else
                    run fuel tested streams
                      (.each name (rest.map fun f => [.literal f true]) body) s
      | .arm subject patterns body rest =>
          let (text, s) := expandWhole printer subject s
          let (found, s) := matchesAny printer text patterns s
          if found then run fuel tested streams body (s.ended 0)
          else run fuel tested streams rest (s.ended 0)
      | .inside body =>
          match run fuel tested streams body s with
          | (.endless, done) => (.endless, done)
          | (flow, done) => checked tested flow.contained (s.after done)
      | .redirected body redirections =>
          match redirect printer redirections streams s with
          | (.error text, s) => checked tested .next (s.complain streams 0 text 2)
          | (.ok streams, s) => run fuel tested streams body s
      | .define name body =>
          (.next, { s with functions := (name, body) :: s.functions.filter (·.1 ≠ name) }.ended 0)

end Publication.Shell
