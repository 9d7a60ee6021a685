import Mathlib.Data.List.TakeWhile
import Publication.Proofs.FileSystem.Contents
import Publication.Proofs.FileSystem.Names

/-! Paths to directories. Separators at the end of a path only ask for a directory, and a path leads
somewhere only if its parent is a directory. So directories that were made, however far that went,
are made once more without a change.
-/

namespace Publication

open Publication.Text

-----------------------------------------------------------------------------------------
-- Separators at the end
-----------------------------------------------------------------------------------------

/-- Separators at the end are cut into pieces without text. -/
theorem splitOn_separators (s : List Char) (count : Nat)
    : splitOn '/' (s ++ List.replicate count '/') = splitOn '/' s ++ List.replicate count [] := by
  induction count generalizing s with
  | zero => simp
  | succ count ih =>
      have rest := ih []
      rw [List.nil_append] at rest
      rw [List.replicate_succ, splitOn_append, rest]
      rfl

namespace Location

@[simp] theorem walk_replicate_nil (place : Location) (count : Nat)
    : place.walk (List.replicate count []) = place := by
  induction count with
  | zero => rfl
  | succ count ih => simpa [List.replicate_succ, walk] using ih

@[simp] theorem trail_replicate_nil (place : Location) (count : Nat)
    : place.trail (List.replicate count []) = List.replicate count place := by
  induction count with
  | zero => rfl
  | succ count ih => simpa [List.replicate_succ, trail] using ih

end Location

namespace Path

theorem isEmpty_eq_false_iff (path : Path) : path.isEmpty = false ↔ path.text.toList ≠ [] := by
  rw [isEmpty, ← Bool.not_eq_true, String.isEmpty_iff, ← String.toList_eq_nil_iff]

/-- A text and a longer one begin the same, unless the first one is empty. -/
theorem isAbsolute_of_append {path longer : Path} {more : List Char}
    (filled : path.isEmpty = false) (whole : longer.text.toList = path.text.toList ++ more)
    : longer.isEmpty = false ∧ longer.isAbsolute = path.isAbsolute := by
  obtain ⟨c, rest, text⟩ := List.exists_cons_of_ne_nil (path.isEmpty_eq_false_iff.mp filled)
  rw [isEmpty_eq_false_iff, isAbsolute, isAbsolute, whole, text]
  simp

end Path

namespace FileSystem

/-- A path is what it is without the separators at its end, and then these. -/
theorem exists_text_eq_withoutSlashes (path : Path)
    : (withoutSlashes path).isEmpty = path.isEmpty
      ∧ ∃ count,
          path.text.toList = (withoutSlashes path).text.toList ++ List.replicate count '/' := by
  have halves := List.takeWhile_append_dropWhile (p := (· = '/')) (l := path.text.toList.reverse)
  have all (c : Char) (member : c ∈ path.text.toList.reverse.takeWhile (· = '/')) : c = '/' := by
    simpa using List.all_eq_true.mp List.all_takeWhile c member
  rw [List.eq_replicate_of_mem all] at halves
  cases kept : path.text.toList.reverse.dropWhile (· = '/') with
  | nil =>
      have same : withoutSlashes path = path := by simp only [withoutSlashes, kept]
      rw [same]
      exact ⟨rfl, 0, by simp⟩
  | cons c reversed =>
      have text : (withoutSlashes path).text.toList = (c :: reversed).reverse := by
        simp only [withoutSlashes, kept, String.toList_ofList]
      have whole := congrArg List.reverse halves
      rw [kept, List.reverse_append, List.reverse_replicate, List.reverse_reverse, ← text] at whole
      have filled : (withoutSlashes path).isEmpty = false := by
        rw [Path.isEmpty_eq_false_iff, text]
        simp
      exact ⟨filled.trans (Path.isAbsolute_of_append filled whole.symm).1.symm, _, whole.symm⟩

variable {fs : FileSystem} {path : Path} {place : Location}

/-- Separators at the end of a path only pass through the place where it leads. -/
theorem exists_trail_eq_withoutSlashes (filled : path.isEmpty = false) (here : Location)
    : path.place here = (withoutSlashes path).place here
      ∧ ∃ count,
          path.trail here
            = (withoutSlashes path).trail here
              ++ List.replicate count ((withoutSlashes path).place here) := by
  obtain ⟨same, count, text⟩ := exists_text_eq_withoutSlashes path
  have start := (Path.isAbsolute_of_append (same.trans filled) text).2
  simp only [Path.place, Path.trail, Path.origin, start, text, splitOn_separators,
    Location.walk_append, Location.trail_append, Location.walk_replicate_nil,
    Location.trail_replicate_nil, true_and]
  exact ⟨count, rfl⟩

/-- A path leads where it leads without the separators at its end. -/
theorem locate_withoutSlashes (led : fs.locate path = .ok place)
    : fs.locate (withoutSlashes path) = .ok place := by
  rw [locate_eq_ok_iff] at led ⊢
  obtain ⟨filled, passed, goal⟩ := led
  obtain ⟨same, count, trail⟩ := exists_trail_eq_withoutSlashes filled fs.here
  rw [trail] at passed
  refine ⟨(exists_text_eq_withoutSlashes path).1.trans filled, ?_, same ▸ goal⟩
  exact fun on way => passed on (List.mem_append_left _ way)

/-- With separators at its end a path leads to a directory alone. -/
theorem locate_of_withoutSlashes (led : fs.locate (withoutSlashes path) = .ok place)
    (held : fs.entry? place = some .directory)
    : fs.locate path = .ok place := by
  rw [locate_eq_ok_iff] at led ⊢
  obtain ⟨filled, passed, goal⟩ := led
  rw [(exists_text_eq_withoutSlashes path).1] at filled
  obtain ⟨same, count, trail⟩ := exists_trail_eq_withoutSlashes filled fs.here
  refine ⟨filled, fun on way => ?_, same.trans goal⟩
  rw [trail] at way
  rcases List.mem_append.mp way with way | stay
  · exact passed on way
  · rw [List.eq_of_mem_replicate stay, goal, held]

/-- A path with a separator at its end leads to a directory, if anywhere. -/
theorem entry?_of_endsInSlash (slash : endsInSlash path = true) (led : fs.locate path = .ok place)
    : fs.entry? place = some .directory := by
  obtain ⟨_, passed, rfl⟩ := (locate_eq_ok_iff fs path place).mp led
  obtain ⟨outer, text⟩ := List.getLast?_eq_some_iff.mp (beq_iff_eq.mp slash)
  have pieces := splitOn_separators outer 1
  rw [List.replicate_one, List.replicate_one, ← text] at pieces
  refine passed _ ?_
  simp [Path.trail, Path.place, pieces, Location.trail_append, Location.walk_append,
    Location.trail, Location.walk]

end FileSystem

-----------------------------------------------------------------------------------------
-- Parents
-----------------------------------------------------------------------------------------

namespace Path

variable {path parent : Path}

/-- The text of a path is its beginning and its pieces with separators between them. -/
theorem text_eq_pieces (path : Path)
    : path.text.toList = path.pieces.1.text ++ List.intercalate ['/'] path.pieces.2 := by
  have whole (s : List Char) : List.intercalate ['/'] (splitOn '/' s) = s :=
    intercalate_splitFrom [] s
  simp only [pieces]
  split
  next rest text => rw [text, whole]; rfl
  next text => rw [text]; rfl
  next rest text => rw [text, whole]; rfl
  next => rw [whole]; rfl

/-- No piece of a path holds a separator. -/
theorem not_mem_of_mem_pieces {piece : List Char} (among : piece ∈ path.pieces.2)
    : '/' ∉ piece := by
  simp only [pieces] at among
  split at among
  · exact not_mem_of_mem_splitFrom List.not_mem_nil among
  · cases among
  · exact not_mem_of_mem_splitFrom List.not_mem_nil among
  · exact not_mem_of_mem_splitFrom List.not_mem_nil among

/-- A path that begins with a dot is that dot, or goes on with a separator. -/
theorem pieces_here (start : path.pieces.1 = .here)
    : path.pieces.2 = [] ∨ ∃ rest, path.text.toList = '.' :: '/' :: rest := by
  simp only [pieces] at start ⊢
  split at start
  · cases start
  · simp_all
  · simp_all
  · cases start

/-- Pieces are trimmed at their end. -/
theorem exists_eq_trimPieces (found : List (List Char))
    : ∃ dropped, found = trimPieces found ++ dropped := by
  have halves := congrArg List.reverse
    (List.takeWhile_append_dropWhile (p := fun piece => !counts piece) (l := found.reverse))
  rw [List.reverse_append, List.reverse_reverse] at halves
  exact ⟨_, halves.symm⟩

/-- The last of trimmed pieces counts. -/
theorem counts_of_trimPieces {found before : List (List Char)} {last : List Char}
    (trimmed : (trimPieces found).reverse = last :: before)
    : counts last = true := by
  rw [trimPieces, List.reverse_reverse] at trimmed
  have filled : found.reverse.dropWhile (fun piece => !counts piece) ≠ [] := by simp [trimmed]
  have first := List.head_dropWhile_not _ filled
  simpa [trimmed] using first

/-- The pieces of a parent are followed by one that counts. -/
theorem pieces_of_parent? (named : path.parent? = some parent)
    : parent.text = ""
      ∨ ∃ kept back last,
          path.pieces.2 = kept ++ back
          ∧ last ∈ back
          ∧ counts last = true
          ∧ parent.text.toList = path.pieces.1.text ++ List.intercalate ['/'] kept := by
  simp only [parent?] at named
  split at named
  next last before trimmed =>
      cases named
      obtain ⟨dropped, found⟩ := exists_eq_trimPieces path.pieces.2
      obtain ⟨passed, rest⟩ := exists_eq_trimPieces before.reverse
      have front := congrArg List.reverse trimmed
      rw [List.reverse_reverse, List.reverse_cons, rest] at front
      rw [front] at found
      refine .inr ⟨trimPieces before.reverse, passed ++ last :: dropped, last, ?_, ?_, ?_, ?_⟩
      · simpa using found
      · simp
      · exact counts_of_trimPieces trimmed
      · simp
  next => 
      cases named
      exact .inl rfl
  next => cases named

/-- A parent is the root, or the path goes on from it with a separator and more than that. -/
theorem text_of_parent? (named : path.parent? = some parent) (filled : parent.isEmpty = false)
    : parent.text.toList = ['/']
      ∨ ∃ more, path.text.toList = parent.text.toList ++ '/' :: more ∧ ∃ c ∈ more, c ≠ '/' := by
  rcases pieces_of_parent? named with empty | ⟨kept, back, last, found, among, counted, text⟩
  · rw [isEmpty, empty] at filled
    cases filled
  · have whole := path.text_eq_pieces
    obtain ⟨c, rest, first⟩ : ∃ c rest, last = c :: rest := by
      cases last with
      | nil => cases counted
      | cons c rest => exact ⟨c, rest, rfl⟩
    have other : c ≠ '/' := by
      have member : last ∈ path.pieces.2 := found ▸ List.mem_append_right kept among
      rintro rfl
      exact not_mem_of_mem_pieces member (first ▸ List.mem_cons_self)
    have inside : c ∈ List.intercalate ['/'] back :=
      mem_intercalate among (first ▸ List.mem_cons_self)
    have next : back ≠ [] := List.ne_nil_of_mem among
    by_cases none : kept = []
    · subst none
      rw [List.nil_append] at found
      cases start : path.pieces.1 with
      | root => exact .inl (by simp [text, start, Start.text])
      | here =>
          rcases pieces_here start with empty | ⟨rest, dotted⟩
          · exact absurd (found ▸ empty) next
          · refine .inr ⟨rest, by simp [dotted, text, start, Start.text], c, ?_, other⟩
            rw [found, start, dotted] at whole
            have same : '/' :: rest = List.intercalate ['/'] back := by
              simpa [Start.text] using whole
            rw [← same] at inside
            exact (List.mem_cons.mp inside).resolve_left other
      | plain =>
          rw [isEmpty_eq_false_iff, text, start] at filled
          exact absurd rfl filled
    · refine .inr ⟨_, ?_, c, inside, other⟩
      rw [whole, found, intercalate_append none next, text, List.append_assoc]

end Path

-----------------------------------------------------------------------------------------
-- Directories that are there
-----------------------------------------------------------------------------------------

namespace FileSystem

variable {fs after : FileSystem} {path parent : Path} {place : Location}

theorem isDirectory_iff (fs : FileSystem) (path : Path)
    : fs.isDirectory path = true
      ↔ ∃ place, fs.locate path = .ok place ∧ fs.entry? place = some .directory := by
  rw [← at?_eq_ok_iff, isDirectory]
  cases fs.at? path with
  | error e => simp
  | ok entry => cases entry <;> simp

/-- Directories stay when others are made or files are put. -/
theorem Grows.isDirectory (grows : Grows fs after) (directory : fs.isDirectory path = true)
    : after.isDirectory path = true := by
  obtain ⟨place, led, held⟩ := (isDirectory_iff fs path).mp directory
  exact (isDirectory_iff after path).mpr ⟨place, grows.locate led, grows.directories place held⟩

/-- A path that goes on from another one with a separator leads on from a directory. -/
theorem isDirectory_of_append {longer : Path} {more : List Char} (filled : path.isEmpty = false)
    (text : longer.text.toList = path.text.toList ++ '/' :: more)
    (led : fs.locate longer = .ok place)
    : fs.isDirectory path = true := by
  obtain ⟨_, passed, _⟩ := (locate_eq_ok_iff fs longer place).mp led
  have start : longer.origin fs.here = path.origin fs.here := by
    rw [Path.origin, Path.origin, (Path.isAbsolute_of_append filled text).2]
  obtain ⟨first, others, pieces⟩ := List.exists_cons_of_ne_nil (splitFrom_ne_nil '/' [] more)
  have trail
      : longer.trail fs.here
        = path.trail fs.here ++ (path.place fs.here).trail (first :: others) := by
    rw [Path.trail, start, text, splitOn_append, Location.trail_append, ← pieces]
    rfl
  rw [trail] at passed
  refine (isDirectory_iff fs path).mpr ⟨path.place fs.here, ?_, passed _ ?_⟩
  · exact (locate_eq_ok_iff fs path _).mpr
      ⟨filled, fun on way => passed on (List.mem_append_left _ way), rfl⟩
  · exact List.mem_append_right _ List.mem_cons_self

theorem isDirectory_root (root : path.text.toList = ['/']) : fs.isDirectory path = true := by
  have absolute : path.isAbsolute = true := by simp [Path.isAbsolute, root]
  have pieces : splitOn '/' ['/'] = [[], []] := rfl
  refine (isDirectory_iff fs path).mpr ⟨[], (locate_eq_ok_iff fs path []).mpr ⟨?_, ?_, ?_⟩, rfl⟩
  · rw [Path.isEmpty_eq_false_iff, root]
    exact List.cons_ne_nil _ _
  · simp [Path.trail, Path.origin, absolute, root, pieces, Location.trail]
  · simp [Path.place, Path.origin, absolute, root, pieces, Location.walk]

/-- A path leads somewhere only if its parent is a directory. -/
theorem isDirectory_parent (named : path.parent? = some parent) (filled : parent.isEmpty = false)
    (led : fs.locate (withoutSlashes path) = .ok place)
    : fs.isDirectory parent = true := by
  rcases Path.text_of_parent? named filled with root | ⟨more, text, c, among, other⟩
  · exact isDirectory_root root
  · obtain ⟨_, count, whole⟩ := exists_text_eq_withoutSlashes path
    have same : (parent.text.toList ++ ['/']) ++ more
        = (withoutSlashes path).text.toList ++ List.replicate count '/' := by
      rw [← whole, text, List.append_assoc, List.singleton_append]
    rcases List.append_eq_append_iff.mp same with ⟨kept, text, _⟩ | ⟨cut, _, rest⟩
    · rw [List.append_assoc, List.singleton_append] at text
      exact isDirectory_of_append filled text led
    · -- What is cut off the path would hold more than separators.
      have slash : c ∈ List.replicate count '/' := rest ▸ List.mem_append_right cut among
      exact absurd (List.eq_of_mem_replicate slash) other

-----------------------------------------------------------------------------------------
-- Directories that are made once more
-----------------------------------------------------------------------------------------

theorem makeDirectory_of_isDirectory (directory : fs.isDirectory path = true)
    : fs.makeDirectory path = .error .alreadyExists := by
  obtain ⟨place, led, held⟩ := (isDirectory_iff fs path).mp directory
  simp only [makeDirectory, locate_withoutSlashes led, held]

theorem ensureDirectory_of_isDirectory (directory : fs.isDirectory path = true)
    : ensureDirectory path fs = (.ok (), fs) := by
  simp only [ensureDirectory, makeDirectory_of_isDirectory directory, directory, if_true]

/-- A directory that was made is there. -/
theorem isDirectory_of_ensureDirectory (made : ensureDirectory path fs = (.ok (), after))
    : after.isDirectory path = true := by
  simp only [ensureDirectory] at made
  split at made
  next whole new =>
      cases made
      have grows := (frame_of_makeDirectory new).within.grows
      obtain ⟨place, led, free, rfl⟩ := makeDirectory_eq_ok new
      have below : place ≠ [] := by
        rintro rfl
        cases free
      have held : FileSystem.entry? (fs.put place .directory) place = some .directory := by
        rw [entry?_put fs below, if_pos rfl]
      exact (isDirectory_iff _ path).mpr
        ⟨place, locate_of_withoutSlashes (grows.locate led) held, held⟩
  next =>
      split at made
      next directory =>
          cases made
          exact directory
      next => cases made

/-- Where a directory is not made and not there, nothing changes. -/
theorem ensureDirectory_eq_error {e : FileError}
    (failed : ensureDirectory path fs = (.error e, after))
    : after = fs ∧ fs.makeDirectory path = .error e := by
  simp only [ensureDirectory] at failed
  split at failed
  next => cases failed
  next e refused =>
      split at failed
      next => cases failed
      next =>
          cases failed
          exact ⟨rfl, refused⟩

/-- Where a directory is made or there, its path leads somewhere without the separators at its end.
-/
theorem exists_locate_of_ensureDirectory (made : ensureDirectory path fs = (.ok (), after))
    : ∃ place, fs.locate (withoutSlashes path) = .ok place := by
  simp only [ensureDirectory] at made
  split at made
  next whole new =>
      obtain ⟨place, led, _⟩ := makeDirectory_eq_ok new
      exact ⟨place, led⟩
  next =>
      split at made
      next directory =>
          obtain ⟨place, led, _⟩ := (isDirectory_iff fs path).mp directory
          exact ⟨place, locate_withoutSlashes led⟩
      next => cases made

/-- A chain ends with the making of its last directory. Its parent is made before where that is
missing.
-/
theorem makeChain_succ_cases (fuel : Nat) (fs : FileSystem) (path : Path)
    (filled : path.isEmpty = false)
    : makeChain (fuel + 1) path fs = ensureDirectory path fs
      ∨ ∃ parent,
          path.parent? = some parent
          ∧ makeChain (fuel + 1) path fs
            = match makeChain fuel parent fs with
              | (.ok (), outer) => ensureDirectory path outer
              | failed => failed := by
  simp only [makeChain, filled, Bool.false_eq_true, if_false]
  split
  next parent _ named => exact .inr ⟨parent, named, rfl⟩
  next => exact .inl rfl

theorem makeChain_of_isDirectory (fuel : Nat) (directory : fs.isDirectory path = true)
    : makeChain fuel path fs = (.ok (), fs) := by
  cases fuel with
  | zero => exact ensureDirectory_of_isDirectory directory
  | succ fuel =>
      simp only [makeChain, makeDirectory_of_isDirectory directory,
        ensureDirectory_of_isDirectory directory]
      split <;> rfl

/-- A chain of directories that was made is there, if there is any text to it. -/
theorem isDirectory_of_makeChain {fuel : Nat} (filled : path.isEmpty = false)
    (made : makeChain fuel path fs = (.ok (), after))
    : after.isDirectory path = true := by
  cases fuel with
  | zero => exact isDirectory_of_ensureDirectory made
  | succ fuel =>
      rcases makeChain_succ_cases fuel fs path filled with single | ⟨parent, _, chain⟩
      · exact isDirectory_of_ensureDirectory (single ▸ made)
      · rw [chain] at made
        split at made
        next => exact isDirectory_of_ensureDirectory made
        next other => 
            exact (other _ made).elim

/-- A chain that was made is made once more without a change. -/
theorem makeChain_eq_ok {fuel : Nat} (made : makeChain fuel path fs = (.ok (), after))
    : makeChain fuel path after = (.ok (), after) := by
  cases filled : path.isEmpty with
  | false => exact makeChain_of_isDirectory fuel (isDirectory_of_makeChain filled made)
  | true =>
      cases fuel with
      | zero => exact makeChain_of_isDirectory 0 (isDirectory_of_ensureDirectory made)
      | succ fuel => simp [makeChain, filled]

/-- For a path without text nothing is begun. -/
theorem eq_of_makeChain_eq_error {fuel : Nat} {e : FileError} (empty : path.isEmpty = true)
    (failed : makeChain fuel path fs = (.error e, after))
    : after = fs := by
  cases fuel with
  | zero => exact (ensureDirectory_eq_error failed).1
  | succ fuel =>
      simp only [makeChain, empty, if_true] at failed
      cases failed

/-- Where the chain of a parent is there, only the last directory is left to make. -/
theorem makeChain_of_parent {fuel : Nat} (filled : path.isEmpty = false)
    (named : path.parent? = some parent) (there : makeChain fuel parent fs = (.ok (), fs))
    : makeChain (fuel + 1) path fs = ensureDirectory path fs := by
  rcases makeChain_succ_cases fuel fs path filled with single | ⟨other, same, chain⟩
  · exact single
  · obtain rfl := Option.some.inj (named.symm.trans same)
    rw [there] at chain
    exact chain

/-- A chain fails without a change where the chain of its parent does. -/
theorem makeChain_eq_error_of_parent {fuel : Nat} {e : FileError} (filled : path.isEmpty = false)
    (named : path.parent? = some parent) (outer : parent.isEmpty = false)
    (failed : makeChain fuel parent fs = (.error e, fs))
    : ∃ e', makeChain (fuel + 1) path fs = (.error e', fs) := by
  rcases makeChain_succ_cases fuel fs path filled with single | ⟨other, same, chain⟩
  · rw [single]
    rcases made : ensureDirectory path fs with ⟨e' | ⟨⟨⟩⟩, after⟩
    · obtain ⟨rfl, _⟩ := ensureDirectory_eq_error made
      exact ⟨e', rfl⟩
    · obtain ⟨place, led⟩ := exists_locate_of_ensureDirectory made
      have directory := isDirectory_parent named outer led
      rw [makeChain_of_isDirectory fuel directory] at failed
      cases failed
  · obtain rfl := Option.some.inj (named.symm.trans same)
    rw [failed] at chain
    exact ⟨e, chain⟩

/-- A chain that was begun but not made is not made once more either, and nothing more is begun; by
induction on the number of components.
-/
theorem makeChain_eq_error {fuel : Nat} {e : FileError}
    (failed : makeChain fuel path fs = (.error e, after))
    : ∃ e', makeChain fuel path after = (.error e', after) := by
  induction fuel generalizing path fs after e with
  | zero =>
      obtain ⟨rfl, _⟩ := ensureDirectory_eq_error failed
      exact ⟨e, failed⟩
  | succ fuel ih =>
      cases filled : path.isEmpty with
      | true =>
          obtain rfl := eq_of_makeChain_eq_error filled failed
          exact ⟨e, failed⟩
      | false =>
          rcases makeChain_succ_cases fuel fs path filled with single | ⟨parent, named, chain⟩
          · obtain ⟨rfl, _⟩ := ensureDirectory_eq_error (single ▸ failed)
            exact ⟨e, failed⟩
          · rcases begun : makeChain fuel parent fs with ⟨e' | ⟨⟨⟩⟩, made⟩
            next =>
                -- Some directories may have been made on the way, so that what fails next time can
                -- fail for another reason.
                rw [chain, begun] at failed
                cases failed
                cases outer : parent.isEmpty with
                | true =>
                    obtain rfl := eq_of_makeChain_eq_error outer begun
                    rw [begun] at chain
                    exact ⟨_, chain⟩
                | false =>
                    obtain ⟨_, again⟩ := ih begun
                    exact makeChain_eq_error_of_parent filled named outer again
            next =>
                rw [chain, begun] at failed
                obtain ⟨rfl, _⟩ := ensureDirectory_eq_error failed
                have last := makeChain_of_parent filled named (makeChain_eq_ok begun)
                exact ⟨e, last.trans failed⟩

theorem makeDirectories_of_isDirectory (directory : fs.isDirectory path = true)
    : makeDirectories path fs = (.ok (), fs) :=
  makeChain_of_isDirectory _ directory

theorem isDirectory_of_makeDirectories (filled : path.isEmpty = false)
    (made : makeDirectories path fs = (.ok (), after))
    : after.isDirectory path = true :=
  isDirectory_of_makeChain filled made

/-- Where directories were not made, they are not made once more, and nothing changes. -/
theorem makeDirectories_eq_error {e : FileError}
    (failed : makeDirectories path fs = (.error e, after))
    : ∃ e', makeDirectories path after = (.error e', after) :=
  makeChain_eq_error failed

-----------------------------------------------------------------------------------------
-- The directory that a path is in
-----------------------------------------------------------------------------------------

theorem isEmpty_directory (path : Path) : path.directory.isEmpty = false := by
  simp only [Path.directory]
  split
  next dir _ =>
      cases empty : dir.isEmpty with
      | true => rfl
      | false => simp [empty]
  next => rfl

/-- The current directory is where a dot leads. -/
theorem isDirectory_dot (here : fs.entry? fs.here = some .directory)
    : fs.isDirectory ⟨"."⟩ = true := by
  have pieces : splitOn '/' ".".toList = [['.']] := rfl
  refine (isDirectory_iff fs _).mpr ⟨fs.here, (locate_eq_ok_iff fs _ _).mpr ⟨rfl, ?_, ?_⟩, here⟩
  · intro on way
    rw [Path.trail, pieces] at way
    rw [List.mem_singleton.mp way]
    exact here
  · rw [Path.place, pieces]
    rfl

/-- An absolute path without a directory of its own leads to the root. -/
theorem place_of_parent?_none (absolute : path.isAbsolute = true)
    (none : ∀ parent, path.parent? = some parent → parent.isEmpty = true) (here : Location)
    : path.place here = [] := by
  obtain ⟨rest, text⟩ : ∃ rest, path.text.toList = '/' :: rest :=
    List.head?_eq_some_iff.mp (beq_iff_eq.mp absolute)
  have pieces : path.pieces = (.root, splitOn '/' rest) := by simp only [Path.pieces, text]
  have trimmed : (Path.trimPieces path.pieces.2).reverse = [] := by
    cases last : (Path.trimPieces path.pieces.2).reverse with
    | nil => rfl
    | cons last before =>
        have named := none _ (by simp only [Path.parent?, last]; rfl)
        rw [Path.isEmpty, pieces] at named
        simp [Path.Start.text] at named
  have idle : path.pieces.2.filter Path.counts = [] := by
    rw [Path.trimPieces, List.reverse_reverse, List.dropWhile_eq_nil_iff] at trimmed
    refine List.filter_eq_nil_iff.mpr fun piece among => ?_
    simpa using trimmed piece (List.mem_reverse.mpr among)
  rw [Path.place, ← Location.walk_filter_counts, ← Path.filter_pieces, idle, Path.origin, absolute]
  rfl

/-- What is no directory is in one. -/
theorem isDirectory_directory (led : fs.locate path = .ok place)
    (held : fs.entry? place ≠ some .directory)
    : fs.isDirectory path.directory = true := by
  obtain ⟨_, passed, rfl⟩ := (locate_eq_ok_iff fs path place).mp led
  by_cases own : ∃ parent, path.parent? = some parent ∧ parent.isEmpty = false
  · obtain ⟨parent, named, filled⟩ := own
    simp only [Path.directory, named, filled, Bool.false_eq_true, if_false]
    exact isDirectory_parent named filled (locate_withoutSlashes led)
  · have none (parent : Path) (named : path.parent? = some parent) : parent.isEmpty = true :=
      Bool.of_not_eq_false fun filled => own ⟨parent, named, filled⟩
    have dot : path.directory = ⟨"."⟩ := by
      simp only [Path.directory]
      split
      next parent named => rw [if_pos (none parent named)]
      next => rfl
    have relative : path.isAbsolute = false := by
      refine Bool.eq_false_iff.mpr fun absolute => held ?_
      rw [place_of_parent?_none absolute none, entry?_root]
    obtain ⟨first, others, pieces⟩ :=
      List.exists_cons_of_ne_nil (splitFrom_ne_nil '/' [] path.text.toList)
    rw [dot]
    refine isDirectory_dot (passed _ ?_)
    rw [Path.trail, splitOn, pieces, Path.origin, relative]
    exact List.mem_cons_self

end FileSystem
end Publication
