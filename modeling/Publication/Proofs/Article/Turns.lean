import Mathlib.Data.List.ReduceOption
import Publication.Proofs.Article.Copies
import Publication.Proofs.FileSystem.Listings

/-! Resources and includes at their turns. What becomes of them is told by the files that are there
when their turn comes: each copy is made or fails, and what fails is warned of, unless the article
is not complete without it.
-/

namespace Publication

open Publication.Document
open Publication.Latex (bind_of_ok)

-----------------------------------------------------------------------------------------
-- Copies in order
-----------------------------------------------------------------------------------------

/-- The files after copies that were tried one after the other. -/
def copyAll (copies : List (Path × Path)) (fs : FileSystem) : FileSystem :=
  copies.foldl (fun fs copy => (attempt copy.1 copy.2 fs).2) fs

theorem copyAll_append (front back : List (Path × Path)) (fs : FileSystem)
    : copyAll (front ++ back) fs = copyAll back (copyAll front fs) :=
  List.foldl_append

/-- What becomes of copies, each tried after those before it: why it fails, if it does. -/
def outcomes : List (Path × Path) → FileSystem → List (Option FileError)
  | [], _ => []
  | copy :: rest, fs =>
      (attempt copy.1 copy.2 fs).1 :: outcomes rest (attempt copy.1 copy.2 fs).2

theorem length_outcomes (copies : List (Path × Path)) (fs : FileSystem)
    : (outcomes copies fs).length = copies.length := by
  induction copies generalizing fs with
  | nil => rfl
  | cons copy rest ih => rw [outcomes, List.length_cons, List.length_cons, ih]

-----------------------------------------------------------------------------------------
-- Accounts
-----------------------------------------------------------------------------------------

/-- Enters into a report what became of files. A file is copied if there is no warning of it. -/
def Published.enter (published : Published) (account : List (Option Warning)) : Published :=
  account.foldl (fun published warning? =>
    match warning? with
    | none => published.count
    | some warning => published.warn warning) published

theorem Published.enter_append (published : Published) (front back : List (Option Warning))
    : published.enter (front ++ back) = (published.enter front).enter back :=
  List.foldl_append

/-- Nothing is entered twice or left out, by induction on the account. -/
theorem Published.enter_eq (published : Published) (account : List (Option Warning))
    : published.enter account
      = { written := published.written
          copied := published.copied + account.count none
          warnings := published.warnings ++ account.reduceOption } := by
  induction account generalizing published with
  | nil => simp [enter]
  | cons warning? rest ih =>
      cases warning? with
      | none =>
          have others := ih published.count
          refine others.trans ?_
          simp [count, Nat.add_assoc, Nat.add_comm 1]
      | some warning =>
          have others := ih (published.warn warning)
          refine others.trans ?_
          simp [warn]

-----------------------------------------------------------------------------------------
-- Resources
-----------------------------------------------------------------------------------------

/-- The copies of resources in order. -/
def resourceCopies (dir : Path) (resources : List Resource) : List (Path × Path) :=
  resources.map fun r => (r.source, dir.child r.target)

/-- Resources with what becomes of their copies in a directory. -/
def resourceTurns (dir : Path) (resources : List Resource) (fs : FileSystem)
    : List (Resource × Option FileError) :=
  resources.zip (outcomes (resourceCopies dir resources) fs)

/-- What is to be said of resources. -/
def resourceAccount (turns : List (Resource × Option FileError)) : List (Option Warning) :=
  turns.map fun (r, failure) => failure.map (.resource r.source r.target)

/-- The first resource that the article is not complete without and that cannot be copied. -/
def lost? (turns : List (Resource × Option FileError)) : Option PublishError :=
  turns.findSome? fun (r, failure) =>
    if r.essential then failure.map (.essential r.source r.target) else none

theorem length_resourceTurns (dir : Path) (resources : List Resource) (fs : FileSystem)
    : (resourceTurns dir resources fs).length = resources.length := by
  rw [resourceTurns, List.length_zip, length_outcomes, resourceCopies, List.length_map,
    Nat.min_self]

/-- Resources are entered in order, until an essential one is lost. By induction on them. -/
theorem copyResources_cases (dir : Path) (resources : List Resource) (published : Published)
    (fs : FileSystem)
    : (∃ error,
        lost? (resourceTurns dir resources fs) = some error
        ∧ (copyResources dir resources published fs).1 = .error error)
      ∨ lost? (resourceTurns dir resources fs) = none
        ∧ copyResources dir resources published fs
          = (.ok (published.enter (resourceAccount (resourceTurns dir resources fs))),
              copyAll (resourceCopies dir resources) fs) := by
  induction resources generalizing published fs with
  | nil => exact .inr ⟨rfl, rfl⟩
  | cons r rest ih =>
      rcases tried : attempt r.source (dir.child r.target) fs with ⟨failure, after⟩
      have first : (modifyGet (attempt r.source (dir.child r.target)) : Publishing _) fs
          = (.ok failure, after) :=
        modifyGet_eq_ok_iff.mpr tried
      have turns : resourceTurns dir (r :: rest) fs
          = (r, failure) :: resourceTurns dir rest after := by
        simp [resourceTurns, resourceCopies, outcomes, tried]
      have behind : copyAll (resourceCopies dir (r :: rest)) fs
          = copyAll (resourceCopies dir rest) after := by
        simp [resourceCopies, copyAll, tried]
      rw [copyResources, bind_of_ok first, turns, behind]
      cases failure with
      | none =>
          have lost : lost? ((r, none) :: resourceTurns dir rest after)
              = lost? (resourceTurns dir rest after) := by
            simp [lost?]
          rw [lost]
          exact ih published.count after
      | some e =>
          cases essential : r.essential with
          | true => exact .inl ⟨_, by simp [lost?, essential], rfl⟩
          | false =>
              have lost : lost? ((r, some e) :: resourceTurns dir rest after)
                  = lost? (resourceTurns dir rest after) := by
                simp [lost?, essential]
              rw [lost]
              exact ih (published.warn (.resource r.source r.target e)) after

theorem copyAll_of_copyResources {dir : Path} {resources : List Resource}
    {published last : Published} {fs after : FileSystem}
    (done : copyResources dir resources published fs = (.ok last, after))
    : after = copyAll (resourceCopies dir resources) fs := by
  rcases copyResources_cases dir resources published fs with ⟨_, _, failed⟩ | ⟨_, made⟩
  · rw [done] at failed
    cases failed
  · exact (Prod.mk.inj (done.symm.trans made)).2

-----------------------------------------------------------------------------------------
-- Includes
-----------------------------------------------------------------------------------------

/-- What an include is when its turn comes. Of a directory, the files below it matter, by the names
that lead to them.
-/
inductive Inclusion where
  | file (name : String)
  | folder (name : String) (files : List Location)
  | nothing
deriving DecidableEq

def FileSystem.inclusion (fs : FileSystem) (path : Path) : Inclusion :=
  match path.fileName? with
  | none => .nothing
  | some name =>
      if fs.isFile path then .file name
      else if fs.isDirectory path then .folder name (fs.filesFrom path)
      else .nothing

/-- The copies that an include asks for: from where, and to where. -/
def Inclusion.copies (dir path : Path) : Inclusion → List (Path × Path)
  | .file name => [(path, dir.child name)]
  | .folder name files =>
      files.map fun names =>
        (path.child (String.intercalate "/" names),
          (dir.child name).child (String.intercalate "/" names))
  | .nothing => []

/-- What includes are, each after the copies of those before it. -/
def inclusions (dir : Path) : List Path → FileSystem → List (Path × Inclusion)
  | [], _ => []
  | path :: rest, fs =>
      (path, fs.inclusion path)
        :: inclusions dir rest (copyAll ((fs.inclusion path).copies dir path) fs)

/-- The copies of includes in order. -/
def includedCopies (dir : Path) (turns : List (Path × Inclusion)) : List (Path × Path) :=
  turns.flatMap fun turn => turn.2.copies dir turn.1

theorem filesBelow_eq (fs : FileSystem) (dir : Path)
    : filesBelow fs dir = (fs.filesFrom dir).map (String.intercalate "/") := by
  rw [filesBelow, FileSystem.filesFrom, List.map_filterMap]
  congr 1
  funext ⟨names, entry⟩
  cases entry <;> rfl

/-- What is to be said of files that are included. -/
def fileAccount (copies : List (Path × Path)) (fs : FileSystem) : List (Option Warning) :=
  List.zipWith (fun copy failure => failure.map (Warning.includedFile copy.1)) copies
    (outcomes copies fs)

theorem length_fileAccount (copies : List (Path × Path)) (fs : FileSystem)
    : (fileAccount copies fs).length = copies.length := by
  rw [fileAccount, List.length_zipWith, length_outcomes, Nat.min_self]

/-- What is to be said of an include at its turn. -/
def Inclusion.account (inclusion : Inclusion) (dir path : Path) (fs : FileSystem)
    : List (Option Warning) :=
  match inclusion with
  | .nothing =>
      if path.fileName?.isNone then [some (.unnamedInclude path)]
      else [some (.missingInclude path)]
  | _ => fileAccount (inclusion.copies dir path) fs

/-- How much is to be said of an include: something of each file of a directory, and something of
anything else.
-/
def Inclusion.size : Inclusion → Nat
  | .folder _ files => files.length
  | _ => 1

/-- What is to be said of includes, each after the copies of those before it. -/
def includeAccounts (dir : Path) : List Path → FileSystem → List (List (Option Warning))
  | [], _ => []
  | path :: rest, fs =>
      (fs.inclusion path).account dir path fs
        :: includeAccounts dir rest (copyAll ((fs.inclusion path).copies dir path) fs)

theorem Inclusion.length_account (inclusion : Inclusion) (dir path : Path) (fs : FileSystem)
    : (inclusion.account dir path fs).length = inclusion.size := by
  cases inclusion with
  | nothing =>
      simp only [account]
      split <;> rfl
  | file name => exact length_fileAccount _ fs
  | folder name files => exact (length_fileAccount _ fs).trans (List.length_map _)

theorem map_length_includeAccounts (dir : Path) (includes : List Path) (fs : FileSystem)
    : (includeAccounts dir includes fs).map List.length
      = (inclusions dir includes fs).map fun turn => turn.2.size := by
  induction includes generalizing fs with
  | nil => rfl
  | cons path rest ih =>
      rw [includeAccounts, inclusions, List.map_cons, List.map_cons, ih, Inclusion.length_account]

/-- Included files are entered one after the other, by induction on them. -/
theorem foldl_copyIncluded (copies : List (Path × Path)) (published : Published) (fs : FileSystem)
    : copies.foldl (fun (published, fs) copy => copyIncluded published copy.1 copy.2 fs)
        (published, fs)
      = (published.enter (fileAccount copies fs), copyAll copies fs) := by
  induction copies generalizing published fs with
  | nil => rfl
  | cons copy rest ih =>
      rcases tried : attempt copy.1 copy.2 fs with ⟨failure, after⟩
      have behind : copyAll (copy :: rest) fs = copyAll rest after := by
        rw [copyAll, List.foldl_cons, tried, copyAll]
      have account : fileAccount (copy :: rest) fs
          = failure.map (.includedFile copy.1) :: fileAccount rest after := by
        simp [fileAccount, outcomes, tried]
      simp only [List.foldl_cons, behind, account, copyIncluded, tried]
      cases failure with
      | none => exact ih published.count after
      | some e => exact ih (published.warn (.includedFile copy.1 e)) after

/-- An include is entered as what it is at its turn. -/
theorem copyInclude_eq (dir : Path) (published : Published) (path : Path) (fs : FileSystem)
    : copyInclude dir published path fs
      = (published.enter ((fs.inclusion path).account dir path fs),
          copyAll ((fs.inclusion path).copies dir path) fs) := by
  cases named : path.fileName? with
  | none =>
      simp only [copyInclude, FileSystem.inclusion, Inclusion.account, named, Option.isNone_none,
        if_true]
      rfl
  | some name =>
      simp only [copyInclude, FileSystem.inclusion, named]
      split
      · simp only [Inclusion.account, Inclusion.copies, ← foldl_copyIncluded, List.foldl_cons,
          List.foldl_nil]
      · split
        · simp only [Inclusion.account, Inclusion.copies, ← foldl_copyIncluded, filesBelow_eq,
            List.foldl_map]
        · simp only [Inclusion.account, named, Option.isNone_some, Bool.false_eq_true, if_false]
          rfl

/-- Includes are entered one after the other, by induction on them. -/
theorem copyIncludes_eq (dir : Path) (includes : List Path) (published : Published)
    (fs : FileSystem)
    : copyIncludes dir includes published fs
      = (published.enter (includeAccounts dir includes fs).flatten,
          copyAll (includedCopies dir (inclusions dir includes fs)) fs) := by
  induction includes generalizing published fs with
  | nil => rfl
  | cons path rest ih =>
      have step : copyIncludes dir (path :: rest) published fs
          = copyIncludes dir rest (published.enter ((fs.inclusion path).account dir path fs))
              (copyAll ((fs.inclusion path).copies dir path) fs) := by
        simp only [copyIncludes, List.foldl_cons, copyInclude_eq]
      have behind : includedCopies dir (inclusions dir (path :: rest) fs)
          = (fs.inclusion path).copies dir path
            ++ includedCopies dir
              (inclusions dir rest (copyAll ((fs.inclusion path).copies dir path) fs)) := by
        rw [inclusions, includedCopies, List.flatMap_cons, includedCopies]
      rw [step, ih, behind, includeAccounts, List.flatten_cons, Published.enter_append,
        copyAll_append]

end Publication
