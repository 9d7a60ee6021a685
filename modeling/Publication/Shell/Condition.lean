import Publication.FileSystem.Operations

/-!
Conditions on texts, numbers and files, as the arguments of a test give them.
-/

namespace Publication.Shell

/-- What a test comes to: whether it holds, unless its arguments make no sense. -/
abbrev Verdict := Option Bool

def unary (fs : FileSystem) (operator argument : String) : Verdict :=
  let path : Path := ⟨argument⟩
  match operator with
  | "-n" => some (!argument.isEmpty)
  | "-z" => some argument.isEmpty
  | "-e" => some (fs.isPresent path)
  | "-r" | "-w" => some (fs.isPresent path)
  | "-f" => some (fs.isFile path)
  | "-d" => some (fs.isDirectory path)
  | "-s" =>
      match fs.at? path with
      | .ok (.file bytes _) => some (!bytes.isEmpty)
      | .ok .directory => some true
      | .error _ => some false
  | "-x" =>
      match fs.at? path with
      | .ok (.file _ executable) => some executable
      | .ok .directory => some true
      | .error _ => some false
  | _ => none

/-- A condition on two numbers. -/
def compare (test : Int → Int → Bool) (a b : String) : Verdict :=
  match a.toInt?, b.toInt? with
  | some m, some n => some (test m n)
  | _, _ => none

/-- A condition on two arguments. -/
def binary (a operator b : String) : Verdict :=
  match operator with
  | "=" | "==" => some (a == b)
  | "!=" => some (a != b)
  | "-eq" => compare (· == ·) a b
  | "-ne" => compare (· != ·) a b
  | "-lt" => compare (· < ·) a b
  | "-le" => compare (· ≤ ·) a b
  | "-gt" => compare (fun m n => n < m) a b
  | "-ge" => compare (fun m n => n ≤ m) a b
  | _ => none

/-- A condition without `-a` and `-o`. -/
def simpleCondition (fs : FileSystem) : List String → Verdict
  | [] => some false
  | [a] => some (!a.isEmpty)
  | [a, b] => if a = "!" then some b.isEmpty else unary fs a b
  | "!" :: rest => (simpleCondition fs rest).map (!·)
  | [a, b, c] => binary a b c
  | _ => none

/-- The arguments between those that are a separator. -/
def splitAt (separator : String) : List String → List (List String)
  | [] => [[]]
  | a :: rest =>
      if a = separator then [] :: splitAt separator rest
      else
        match splitAt separator rest with
        | first :: more => (a :: first) :: more
        | [] => [[a]]

/-- Whether all of several verdicts, or any of them, hold. -/
def combine (join : Bool → Bool → Bool) (start : Bool) (verdicts : List Verdict) : Verdict :=
  verdicts.foldr (fun v rest => v.bind fun a => rest.map (join a)) (some start)

/-- A condition. -/
def condition (fs : FileSystem) (arguments : List String) : Verdict :=
  if arguments.length ≤ 3 then simpleCondition fs arguments
  else
    combine or false ((splitAt "-o" arguments).map fun part =>
      combine and true ((splitAt "-a" part).map (simpleCondition fs)))

end Publication.Shell
