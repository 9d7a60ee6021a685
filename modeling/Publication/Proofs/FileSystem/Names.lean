import Publication.Proofs.FileSystem.Places
import Publication.Proofs.Text.Pieces

/-! Paths that end in a name. The paths from one directory to the names in it pass through the same
places, and lead next to one another.
-/

namespace Publication

open Publication.Text

namespace Location

@[simp] theorem descend_nil (place : Location) : place.descend [] = place := rfl

theorem walk_append (place : Location) (front back : List (List Char))
    : place.walk (front ++ back) = (place.walk front).walk back := by
  induction front generalizing place with
  | nil => rfl
  | cons piece front ih => exact ih (place.descend piece)

theorem trail_append (place : Location) (front back : List (List Char))
    : place.trail (front ++ back) = place.trail front ++ (place.walk front).trail back := by
  induction front generalizing place with
  | nil => rfl
  | cons piece front ih => simp only [List.cons_append, trail, walk, ih]

end Location

-----------------------------------------------------------------------------------------
-- Names
-----------------------------------------------------------------------------------------

/-- A text that stands for a name as a piece of a path. -/
def IsName (name : String) : Prop :=
  '/' ∉ name.toList ∧ name.toList ≠ [] ∧ name.toList ≠ ['.'] ∧ name.toList ≠ ['.', '.']

instance (name : String) : Decidable (IsName name) := inferInstanceAs (Decidable (_ ∧ _))

theorem isName_of_length {name : String} (free : '/' ∉ name.toList) (long : 2 < name.toList.length)
    : IsName name := by
  refine ⟨free, ?_, ?_, ?_⟩ <;> intro same <;> simp [same] at long

theorem IsName.descend {name : String} (proper : IsName name) (place : Location)
    : place.descend name.toList = place ++ [name] := by
  obtain ⟨_, filled, other, upper⟩ := proper
  simp [Location.descend, filled, other, upper]

/-- A path that is nothing but a name is not absolute. -/
theorem IsName.isAbsolute {name : String} (proper : IsName name) {path : Path}
    (whole : path.text.toList = name.toList)
    : path.isAbsolute = false := by
  simp only [Path.isAbsolute, whole]
  cases first : name.toList with
  | nil => rfl
  | cons c rest =>
      have other : c ≠ '/' := by
        rintro rfl
        exact proper.1 (by simp [first])
      simp [other]

theorem place_of_separator {path : Path} {outer : List Char} {name : String} (proper : IsName name)
    (whole : path.text.toList = outer ++ '/' :: name.toList) (here : Location)
    : path.place here = (path.origin here).walk (splitOn '/' outer) ++ [name] := by
  simp only [Path.place, whole, splitOn_append, splitOn_of_not_mem proper.1, Location.walk_append,
    Location.walk, proper.descend]

/-- A name in a directory leads to that name behind where the directory is. -/
theorem place_child (dir : Path) {name : String} (proper : IsName name) (here : Location)
    : (dir.child name).place here = dir.place here ++ [name] := by
  have relative : (Path.mk name).isAbsolute = false := proper.isAbsolute rfl
  cases ending : dir.text.toList.getLast? with
  | none =>
      have empty : dir.text.toList = [] := List.getLast?_eq_none_iff.mp ending
      have same : dir.child name = ⟨name⟩ := by simp [Path.child, Path.join, relative, ending]
      have left : dir.place here = here := by
        simp [Path.place, Path.origin, Path.isAbsolute, empty, splitOn, splitFrom, Location.walk]
      rw [same, left]
      simp only [Path.place, Path.origin, relative, splitOn_of_not_mem proper.1, Location.walk,
        proper.descend]
      rfl
  | some c =>
      obtain ⟨outer, whole⟩ := List.getLast?_eq_some_iff.mp ending
      by_cases slash : c = '/'
      · subst slash
        have text : (dir.child name).text.toList = outer ++ '/' :: name.toList := by
          simp [Path.child, Path.join, relative, whole]
        have start : (dir.child name).origin here = dir.origin here := by
          simp only [Path.origin, Path.isAbsolute, text, whole]
          cases outer <;> simp
        rw [place_of_separator proper text, start]
        rw [Path.place, whole, splitOn_append, Location.walk_append]
        simp [splitOn, splitFrom, Location.walk]
      · have text : (dir.child name).text.toList = dir.text.toList ++ '/' :: name.toList := by
          simp [Path.child, Path.join, relative, ending]
        have start : (dir.child name).origin here = dir.origin here := by
          simp only [Path.origin, Path.isAbsolute, text, whole]
          cases outer <;> simp
        rw [place_of_separator proper text, start, Path.place]

/-- Paths that differ only in the name at their end. -/
def Folder (path : String → Path) : Prop :=
  ∃ front : List Char,
    (front = [] ∨ ∃ outer, front = outer ++ ['/'])
    ∧ ∀ name, IsName name → (path name).text.toList = front ++ name.toList

/-- The paths of a folder lead to the names in one directory, by way of the same places. -/
theorem Folder.leads {path : String → Path} (folder : Folder path) (here : Location)
    : ∃ dir before,
        ∀ name, IsName name →
          (path name).place here = dir ++ [name] ∧ (path name).trail here = before ++ [dir] := by
  obtain ⟨front, shape, text⟩ := folder
  rcases shape with rfl | ⟨outer, rfl⟩
  · refine ⟨here, [], fun name proper => ?_⟩
    have whole : (path name).text.toList = name.toList := text name proper
    simp [Path.place, Path.trail, Path.origin, whole, proper.isAbsolute whole,
      splitOn_of_not_mem proper.1, Location.walk, Location.trail, proper.descend]
  · have whole (name : String) (proper : IsName name)
        : (path name).text.toList = outer ++ '/' :: name.toList := by
      rw [text name proper]
      simp
    obtain ⟨origin, starts⟩
        : ∃ origin, ∀ name, IsName name → (path name).origin here = origin := by
      refine ⟨if outer = [] ∨ outer.head? = some '/' then [] else here, fun name proper => ?_⟩
      simp only [Path.origin, Path.isAbsolute, whole name proper]
      cases outer <;> simp
    refine ⟨origin.walk (splitOn '/' outer), origin.trail (splitOn '/' outer), ?_⟩
    intro name proper
    rw [place_of_separator proper (whole name proper), starts name proper]
    simp [Path.trail, starts name proper, whole name proper, splitOn_append,
      splitOn_of_not_mem proper.1, Location.trail_append, Location.trail]

/-- If one path of a folder leads on, so do all, into a directory that is there. -/
theorem Folder.exists_directory {path : String → Path} (folder : Folder path) {fs : FileSystem}
    {name : String} {goal : Location} (proper : IsName name)
    (led : fs.locate (path name) = .ok goal)
    : ∃ dir,
        fs.entry? dir = some .directory
        ∧ ∀ other, IsName other →
            (path other).place fs.here = dir ++ [other]
            ∧ fs.locate (path other) = .ok (dir ++ [other]) := by
  obtain ⟨dir, before, leads⟩ := folder.leads fs.here
  obtain ⟨front, _, text⟩ := folder
  obtain ⟨_, passed, _⟩ := (FileSystem.locate_eq_ok_iff fs (path name) goal).mp led
  rw [(leads name proper).2] at passed
  refine ⟨dir, passed dir (by simp), fun other named => ⟨(leads other named).1, ?_⟩⟩
  rw [FileSystem.locate_eq_ok_iff, (leads other named).1, (leads other named).2]
  refine ⟨?_, passed, rfl⟩
  have filled := named.2.1
  rw [Path.isEmpty, ← Bool.not_eq_true, String.isEmpty_iff, ← String.toList_eq_nil_iff,
    text other named]
  simp [filled]

/-- The names in a directory make a folder. -/
theorem folder_child (dir : Path) : Folder dir.child := by
  have relative (name : String) (proper : IsName name) : (Path.mk name).isAbsolute = false :=
    proper.isAbsolute rfl
  cases ending : dir.text.toList.getLast? with
  | none =>
      refine ⟨[], .inl rfl, fun name proper => ?_⟩
      simp [Path.child, Path.join, relative name proper, ending]
  | some c =>
      by_cases slash : c = '/'
      · subst slash
        obtain ⟨outer, whole⟩ := List.getLast?_eq_some_iff.mp ending
        refine ⟨dir.text.toList, .inr ⟨outer, whole⟩, fun name proper => ?_⟩
        simp [Path.child, Path.join, relative name proper, ending]
      · refine ⟨dir.text.toList ++ ['/'], .inr ⟨_, rfl⟩, fun name proper => ?_⟩
        simp [Path.child, Path.join, relative name proper, ending]

/-- The names in a directory seen from another make a folder. -/
theorem folder_child_of_separator (dir : Path) (outer : String)
    : Folder fun name => dir.child (outer ++ "/" ++ name) := by
  have absolute (name : String)
      : (Path.mk (outer ++ "/" ++ name)).isAbsolute = (Path.mk (outer ++ "/")).isAbsolute := by
    simp only [Path.isAbsolute, String.toList_append]
    cases outer.toList <;> simp
  cases start : (Path.mk (outer ++ "/")).isAbsolute with
  | true =>
      refine ⟨outer.toList ++ ['/'], .inr ⟨_, rfl⟩, fun name _ => ?_⟩
      simp [Path.child, Path.join, absolute, start]
  | false =>
      cases ending : dir.text.toList.getLast? with
      | none =>
          refine ⟨outer.toList ++ ['/'], .inr ⟨_, rfl⟩, fun name _ => ?_⟩
          simp [Path.child, Path.join, absolute, start, ending]
      | some c =>
          by_cases slash : c = '/'
          · refine ⟨dir.text.toList ++ outer.toList ++ ['/'], .inr ⟨_, rfl⟩, fun name _ => ?_⟩
            simp [Path.child, Path.join, absolute, start, ending, slash]
          · refine ⟨dir.text.toList ++ '/' :: outer.toList ++ ['/'], .inr ⟨_, rfl⟩, ?_⟩
            intro name _
            simp [Path.child, Path.join, absolute, start, ending]

-----------------------------------------------------------------------------------------
-- File names
-----------------------------------------------------------------------------------------

/-- Pieces that do not count lead nowhere, by induction on the pieces. -/
theorem Location.walk_filter_counts (place : Location) (pieces : List (List Char))
    : place.walk (pieces.filter Path.counts) = place.walk pieces := by
  induction pieces generalizing place with
  | nil => rfl
  | cons piece rest ih =>
      cases counts : Path.counts piece with
      | true => simp [counts, walk, ih]
      | false =>
          have idle : place.descend piece = place := by
            simp only [Path.counts, Bool.and_eq_false_iff, Bool.not_eq_false', List.isEmpty_iff,
              bne_eq_false_iff_eq] at counts
            simp [descend, counts]
          simp [counts, walk, ih, idle]

/-- The pieces that count are the same with the beginning of the path and without. -/
theorem Path.filter_pieces (path : Path)
    : path.pieces.2.filter counts = (splitOn '/' path.text.toList).filter counts := by
  have dot : splitOn '/' ['.'] = [['.']] := splitOn_of_not_mem (by decide)
  simp only [pieces]
  split
  next rest whole => simp [splitOn, splitFrom, whole, counts]
  next whole => simp [whole, dot, counts]
  next rest whole =>
      have first := splitOn_append '/' ['.'] rest
      have empty := splitOn_append '/' [] rest
      simp only [List.singleton_append, List.nil_append] at first empty
      rw [whole, first, empty, dot]
      simp [splitOn, splitFrom, counts]
  next => rfl

/-- A file name is the last component. -/
theorem Path.getLast?_of_fileName? {path : Path} {name : String}
    (named : path.fileName? = some name)
    : path.components.getLast? = some (.name name) := by
  simp only [fileName?] at named
  split at named
  next found =>
      cases named
      exact found
  next => cases named

/-- A path with a file name leads to that name in some directory. -/
theorem Path.place_of_fileName? {path : Path} {name : String} (named : path.fileName? = some name)
    : IsName name ∧ ∀ here, ∃ dir, path.place here = dir ++ [name] := by
  have last := getLast?_of_fileName? named
  simp only [components, filter_pieces] at last
  rcases List.eq_nil_or_concat ((splitOn '/' path.text.toList).filter counts) with
    none | ⟨init, piece, kept⟩
  · rw [none] at last
    cases start : path.pieces.1 <;> simp [start] at last
  · have member : piece ∈ (splitOn '/' path.text.toList).filter counts := by simp [kept]
    obtain ⟨among, counted⟩ := List.mem_filter.mp member
    have free : '/' ∉ piece := not_mem_of_mem_splitFrom List.not_mem_nil among
    simp only [counts, Bool.and_eq_true, Bool.not_eq_true', List.isEmpty_eq_false_iff,
      bne_iff_ne] at counted
    have named : componentOf piece = .name name := by
      rw [kept, List.concat_eq_append, List.map_append, List.map_singleton, ← List.append_assoc,
        List.getLast?_concat] at last
      exact Option.some.inj last
    simp only [componentOf] at named
    split at named
    next => cases named
    next down =>
        cases named
        have proper : IsName (String.ofList piece) := by
          simpa only [IsName, String.toList_ofList] using ⟨free, counted.1, counted.2, down⟩
        refine ⟨proper, fun here => ⟨(path.origin here).walk init, ?_⟩⟩
        rw [place, ← Location.walk_filter_counts, kept, List.concat_eq_append,
          Location.walk_append]
        simpa [Location.walk] using proper.descend ((path.origin here).walk init)

end Publication
