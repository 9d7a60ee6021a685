import Publication.FileSystem.Basic

/-!
Programs that are started: how one ended, the wording of it, and what it left behind.
-/

namespace Publication

/-- How a program ended. -/
inductive ExitStatus where
  | exited (code : Nat)
  /-- A signal ended it, perhaps with a dump of its memory. -/
  | signaled (signal : Nat) (dumped : Bool)
  | stopped (signal : Nat)
  | continued
  /-- The system reported a number that stands for none of these. -/
  | unknown (report : Nat)
deriving Repr, DecidableEq, Inhabited

namespace ExitStatus

/-- The names of the signals in order, from the first one on. -/
def signalNames : List String := [
  "SIGHUP", "SIGINT", "SIGQUIT", "SIGILL", "SIGTRAP", "SIGABRT", "SIGBUS", "SIGFPE", "SIGKILL",
  "SIGUSR1", "SIGSEGV", "SIGUSR2", "SIGPIPE", "SIGALRM", "SIGTERM", "SIGSTKFLT", "SIGCHLD",
  "SIGCONT", "SIGSTOP", "SIGTSTP", "SIGTTIN", "SIGTTOU", "SIGURG", "SIGXCPU", "SIGXFSZ",
  "SIGVTALRM", "SIGPROF", "SIGWINCH", "SIGIO", "SIGPWR", "SIGSYS"]

def signalText (signal : Nat) : String :=
  let name := if signal = 0 then none else signalNames[signal - 1]?
  toString signal ++ (match name with
    | some name => " (" ++ name ++ ")"
    | none => "")

/-- The program did what it was to do. -/
def succeeded (status : ExitStatus) : Bool := status == .exited 0

/-- The end in words. -/
def text : ExitStatus → String
  | .exited code => "exit status: " ++ toString code
  | .signaled signal dumped =>
      "signal: " ++ signalText signal ++ if dumped then " (core dumped)" else ""
  | .stopped signal => "stopped (not terminated) by signal: " ++ signalText signal
  | .continued => "continued (WIFCONTINUED)"
  | .unknown report =>
      "unrecognised wait status: " ++ toString report ++ " 0x"
        ++ String.ofList (Nat.toDigits 16 report)

end ExitStatus

/-- What a program that was started left behind. -/
structure Launched where
  files : FileSystem
  /-- How it ended, if it did. -/
  status : Option ExitStatus
  /-- What it printed, its diagnostics among the rest. -/
  log : List UInt8

/-- Starts a program with arguments in the current directory, and waits for its end. -/
abbrev Launcher := FileSystem → (program : String) → (arguments : List String) →
  Except FileError Launched

end Publication
