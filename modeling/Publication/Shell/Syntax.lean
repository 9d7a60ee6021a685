/-!
Shell scripts. A script is a command made of commands; a word of a command is made of pieces, some
of which stand for text that is known only when the script runs.
-/

namespace Publication.Shell

/-- What is taken of the value of a parameter. -/
inductive Selection where
  | whole
  | length
  /-- A word instead of a value that is not set, or that is empty if that counts too. -/
  | fallback (emptyCounts : Bool) (word : String)
  /-- A word instead of a value that is set, or that is not empty if that counts too. -/
  | instead (emptyCounts : Bool) (word : String)
  /-- The value without the shortest or longest beginning that matches a pattern. -/
  | withoutStart (longest : Bool) (pattern : String)
  /-- The value without the shortest or longest end that matches a pattern. -/
  | withoutEnd (longest : Bool) (pattern : String)
deriving Repr, DecidableEq

/-- A piece of a word. What stands in quotes is never split into fields. -/
inductive Piece where
  | literal (text : String) (quoted : Bool)
  | parameter (name : String) (selection : Selection) (quoted : Bool)
  /-- The value of an integer expression. -/
  | arithmetic (expression : String) (quoted : Bool)
  /-- What a script prints. -/
  | printed (script : String) (quoted : Bool)
deriving Repr, DecidableEq

/-- A word as it is written. -/
abbrev Word := List Piece

/-- Where a stream is led. -/
inductive Target where
  | input (path : Word)
  | output (path : Word) (append : Bool)
  /-- Where another stream is led. -/
  | stream (number : Word)
deriving Repr, DecidableEq

/-- The redirection of a stream: 0 is the input, 1 the output, 2 the diagnostics. -/
structure Redirection where
  stream : Nat
  target : Target
deriving Repr, DecidableEq

/-- A script. -/
inductive Command where
  | nothing
  /-- Assignments, or else a program with its arguments, on a line of the script. -/
  | simple (line : Nat) (assignments : List (String × Word)) (words : List Word)
      (redirections : List Redirection)
  | sequence (first second : Command)
  | both (first second : Command)
  | either (first second : Command)
  | inverse (command : Command)
  /-- What the first prints is the input of the second. -/
  | pipe (first second : Command)
  | choice (condition yes no : Command)
  /-- The body again and again while the condition holds, or until it does. -/
  | loop (negated : Bool) (condition body : Command)
  | each (name : String) (words : List Word) (body : Command)
  /-- The body if a word matches one of the patterns, or else another command. -/
  | arm (subject : Word) (patterns : List Word) (body rest : Command)
  /-- A command whose changes of variables and directory do not last. -/
  | inside (body : Command)
  | redirected (body : Command) (redirections : List Redirection)
  | define (name : String) (body : Command)
deriving Repr

end Publication.Shell
