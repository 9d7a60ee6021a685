import Publication.Shell.Run

/-!
Starting a program and waiting for its end. The shell and its tools stand in for the programs of a
system, as far as the scripts of the program and of examples need them.
-/

namespace Publication.Shell

/-- The most steps that a program may take. -/
def patience : Nat := 1000000

/-- The end that a flow and the status of the last command come to. -/
def statusOf (flow : Flow) (status : Nat) : Option ExitStatus :=
  match flow with
  | .endless => none
  | .killed signal => some (.signaled signal false)
  | _ => some (.exited status)

def runScript (fs : FileSystem) (text : List Char) (name : String) (arguments : List String) :
    Launched :=
  match parse? text with
  | none => ⟨fs, some (.exited 2), []⟩
  | some command =>
      let scope : Scope := { script := name, arguments := arguments }
      let (flow, s) := run patience false {} command { files := fs, scope := scope }
      ⟨{ s.files with here := fs.here }, statusOf flow s.status, s.log⟩

/-- Starts a tool or a script. -/
def launch : Launcher := fun fs program arguments =>
  match find fs program with
  | .error e => .error e
  | .ok (.tool tool) =>
      let outcome := tool [] fs arguments
      .ok ⟨outcome.files, some (.exited outcome.status), outcome.output ++ outcome.diagnostics⟩
  | .ok (.script text) => .ok (runScript fs text program arguments)
  | .ok .shell =>
      match scriptOf? fs arguments with
      | some (text, name, rest) => .ok (runScript fs text name rest)
      | none => .ok ⟨fs, some (.exited 2), []⟩

end Publication.Shell
