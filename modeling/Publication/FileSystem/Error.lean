/-!
What can go wrong with a file, and the wording of it.
-/

namespace Publication

/-- Why an operation on a file failed. -/
inductive FileError where
  | notFound
  /-- The file is not one that can be run. -/
  | notRunnable
  | notPermitted
  | alreadyExists
  | notDirectory
  | isDirectory
  /-- The octets are not text in UTF-8. -/
  | notText
  /-- What is to be copied is not a regular file. -/
  | notRegular
  /-- A failure that is reported in words of its own. -/
  | other (text : String)
deriving Repr, DecidableEq, Inhabited

namespace FileError

/-- The number by which the system knows a failure, if it does. -/
def number? : FileError → Option Nat
  | .notFound => some 2
  | .notRunnable => some 8
  | .notPermitted => some 13
  | .alreadyExists => some 17
  | .notDirectory => some 20
  | .isDirectory => some 21
  | .notText | .notRegular | .other _ => none

/-- A failure in words, without its number. -/
def reason : FileError → String
  | .notFound => "No such file or directory"
  | .notRunnable => "Exec format error"
  | .notPermitted => "Permission denied"
  | .alreadyExists => "File exists"
  | .notDirectory => "Not a directory"
  | .isDirectory => "Is a directory"
  | .notText => "stream did not contain valid UTF-8"
  | .notRegular => "the source path is neither a regular file nor a symlink to a regular file"
  | .other text => text

/-- A failure in words. -/
def message (error : FileError) : String :=
  match error.number? with
  | some n => error.reason ++ " (os error " ++ toString n ++ ")"
  | none => error.reason

end FileError
end Publication
