import Publication.FileSystem.Basic

/-! Where a path leads is told by its text and the current directory; the files only decide whether
it leads there. So a file system is known by what is at each place, and a path keeps its place as
long as the directories on the way to it stay.
-/

namespace Publication

/-- The place that one piece of a path leads to from a directory, whatever there is. -/
def Location.descend (place : Location) (piece : List Char) : Location :=
  if piece = [] ∨ piece = ['.'] then place
  else if piece = ['.', '.'] then place.dropLast
  else place ++ [String.ofList piece]

/-- The place that the pieces of a path lead to. -/
def Location.walk : Location → List (List Char) → Location
  | place, [] => place
  | place, piece :: rest => Location.walk (place.descend piece) rest

/-- The places on the way along the pieces of a path: each has to be a directory. -/
def Location.trail : Location → List (List Char) → List Location
  | _, [] => []
  | place, piece :: rest => place :: Location.trail (place.descend piece) rest

namespace Path

/-- The place that a path starts from. -/
def origin (here : Location) (path : Path) : Location := if path.isAbsolute then [] else here

/-- The place that a path leads to from a current directory. -/
def place (here : Location) (path : Path) : Location :=
  (path.origin here).walk (Text.splitOn '/' path.text.toList)

/-- The places that a path passes through from a current directory. -/
def trail (here : Location) (path : Path) : List Location :=
  (path.origin here).trail (Text.splitOn '/' path.text.toList)

end Path

namespace FileSystem

-----------------------------------------------------------------------------------------
-- What is at a place
-----------------------------------------------------------------------------------------

@[simp] theorem entry?_root (fs : FileSystem) : fs.entry? [] = some .directory := rfl

theorem entry?_eq_find? (fs : FileSystem) {place : Location} (below : place ≠ [])
    : fs.entry? place = find? place fs.entries := by
  simp [below, entry?]

/-- A replaced entry is found, and nothing else changes, by induction on the list. -/
theorem find?_replace (target place : Location) (entry : Entry) (entries : List (Location × Entry))
    : find? place (replace target entry entries)
      = if place = target then some entry else find? place entries := by
  induction entries with
  | nil => simp only [replace, find?, eq_comm]
  | cons head rest ih =>
      obtain ⟨l, old⟩ := head
      by_cases same : l = target
      · subst same
        by_cases here : l = place
        · simp [replace, find?, here]
        · simp [replace, find?, here, Ne.symm here]
      · by_cases here : l = place
        · subst here
          simp [replace, find?, same]
        · simp [replace, find?, same, here, ih]

/-- After an entry is put at a place, it is there and all else is as before. -/
theorem entry?_put (fs : FileSystem) {target : Location} (below : target ≠ []) (entry : Entry)
    (place : Location)
    : FileSystem.entry? (fs.put target entry) place
      = if place = target then some entry else fs.entry? place := by
  by_cases root : place = []
  · subst root
    simp [Ne.symm below]
  · simp only [entry?_eq_find? _ root, put, find?_replace]

/-- What is found in a filtered list passes the filter, if that looks at places alone. -/
theorem find?_filter (keep : Location → Bool) (place : Location) (entries : List (Location × Entry))
    : find? place (entries.filter fun found => keep found.1)
      = if keep place then find? place entries else none := by
  induction entries with
  | nil => simp [find?]
  | cons head rest ih =>
      obtain ⟨l, entry⟩ := head
      by_cases here : l = place
      · subst here
        cases kept : keep l <;> simp [kept, find?, ih]
      · cases kept : keep l <;> simp [kept, find?, here, ih]

/-- After a place is dropped, nothing is there or below, and all else is as before. -/
theorem entry?_drop (fs : FileSystem) (target : Location) {place : Location} (below : place ≠ [])
    : FileSystem.entry? (fs.drop target) place
      = if target <+: place then none else fs.entry? place := by
  have kept := find?_filter (fun l => !target.isPrefixOf l) place fs.entries
  rw [entry?_eq_find? _ below, entry?_eq_find? _ below]
  refine kept.trans ?_
  by_cases inside : target <+: place
  · simp [inside, List.isPrefixOf_iff_prefix.mpr inside]
  · have outside : target.isPrefixOf place = false := by
      rw [← Bool.not_eq_true, List.isPrefixOf_iff_prefix]
      exact inside
    simp [inside, outside]

theorem entry?_drop_below (fs : FileSystem) {target place : Location} (below : target ≠ [])
    (inside : target <+: place)
    : FileSystem.entry? (fs.drop target) place = none := by
  have down : place ≠ [] := fun root => below (List.prefix_nil.mp (root ▸ inside))
  rw [entry?_drop fs target down, if_pos inside]

@[simp] theorem put_here (fs : FileSystem) (place : Location) (entry : Entry)
    : (fs.put place entry).here = fs.here := rfl

@[simp] theorem drop_here (fs : FileSystem) (place : Location)
    : (fs.drop place).here = fs.here := rfl

-----------------------------------------------------------------------------------------
-- Where a path leads
-----------------------------------------------------------------------------------------

/-- One piece leads on from a directory, and from nothing else. -/
theorem step_eq_ok_iff (fs : FileSystem) (place next : Location) (piece : List Char)
    : fs.step place piece = .ok next
      ↔ fs.entry? place = some .directory ∧ place.descend piece = next := by
  simp only [step, Location.descend]
  cases fs.entry? place with
  | none => simp
  | some entry =>
      cases entry with
      | file octets executable => simp
      | directory =>
          by_cases stay : piece = [] ∨ piece = ['.']
          · simp [stay]
          · by_cases up : piece = ['.', '.'] <;> simp [stay, up]

/-- Pieces lead to a place if each of those on the way is a directory, by induction on them. -/
theorem follow_eq_ok_iff (fs : FileSystem) (place goal : Location) (pieces : List (List Char))
    : fs.follow place pieces = .ok goal
      ↔ (∀ passed ∈ place.trail pieces, fs.entry? passed = some .directory)
        ∧ place.walk pieces = goal := by
  induction pieces generalizing place with
  | nil => simp [follow, Location.trail, Location.walk]
  | cons piece rest ih =>
      simp only [follow, Location.trail, Location.walk, List.mem_cons, forall_eq_or_imp]
      cases stepped : fs.step place piece with
      | ok next =>
          obtain ⟨directory, rfl⟩ := (step_eq_ok_iff fs place next piece).mp stepped
          simp [ih, directory]
      | error e =>
          have stuck : fs.entry? place ≠ some .directory := by
            intro directory
            have free := (step_eq_ok_iff fs place _ piece).mpr ⟨directory, rfl⟩
            rw [stepped] at free
            cases free
          simp [stuck]

/-- A path leads to its place if it is not empty and each place on the way is a directory. -/
theorem locate_eq_ok_iff (fs : FileSystem) (path : Path) (goal : Location)
    : fs.locate path = .ok goal
      ↔ path.isEmpty = false
        ∧ (∀ passed ∈ path.trail fs.here, fs.entry? passed = some .directory)
        ∧ path.place fs.here = goal := by
  simp only [locate, Path.trail, Path.place, Path.origin]
  cases path.isEmpty with
  | true => simp
  | false => simp [follow_eq_ok_iff]

/-- A path leads to what is at its place. -/
theorem at?_eq_ok_iff (fs : FileSystem) (path : Path) (entry : Entry)
    : fs.at? path = .ok entry
      ↔ ∃ place, fs.locate path = .ok place ∧ fs.entry? place = some entry := by
  simp only [at?]
  cases found : fs.locate path with
  | error e => simp
  | ok place => cases held : fs.entry? place <;> simp [held]

/-- What is read is the file that a path leads to. -/
theorem read_eq_ok_iff_at? (fs : FileSystem) (path : Path) (bytes : List UInt8)
    : fs.read path = .ok bytes ↔ ∃ executable, fs.at? path = .ok (.file bytes executable) := by
  simp only [read]
  cases fs.at? path with
  | error e => simp
  | ok entry => cases entry <;> simp

/-- A file is read where its path leads. -/
theorem read_eq_ok_iff (fs : FileSystem) (path : Path) (bytes : List UInt8)
    : fs.read path = .ok bytes
      ↔ ∃ place executable,
          fs.locate path = .ok place ∧ fs.entry? place = some (.file bytes executable) := by
  simp only [read_eq_ok_iff_at?, at?_eq_ok_iff]
  exact exists_comm

theorem isPresent_iff (fs : FileSystem) (path : Path)
    : fs.isPresent path = true ↔ ∃ entry, fs.at? path = .ok entry := by
  simp only [isPresent]
  cases fs.at? path <;> simp

end FileSystem
end Publication
