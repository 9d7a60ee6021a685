import Publication.Proofs.FileSystem.Effects
import Publication.Proofs.FileSystem.Names

/-! Files below a directory. Where places are made of names and each is listed once, whatever is put
where a path leads, the files below a directory are different, and each is found by its names.
-/

namespace Publication

open Publication.Text

-----------------------------------------------------------------------------------------
-- Paths of several names
-----------------------------------------------------------------------------------------

/-- What is written behind a name is written behind its path. -/
theorem text_child_append (dir : Path) {name : String} (filled : name ≠ "") (behind : String)
    : (dir.child (name ++ behind)).text = (dir.child name).text ++ behind := by
  have absolute : (Path.mk (name ++ behind)).isAbsolute = (Path.mk name).isAbsolute := by
    simp only [Path.isAbsolute, String.toList_append]
    cases letters : name.toList with
    | nil => exact absurd (String.toList_eq_nil_iff.mp letters) filled
    | cons c rest => rfl
  simp only [Path.child, Path.join, absolute]
  split
  · rfl
  · split
    · rfl
    · rw [String.append_assoc]
    · simp only [String.append_assoc]

theorem ne_empty_text_child (dir : Path) {name : String} (filled : name ≠ "")
    : (dir.child name).text ≠ "" := by
  simp only [Path.child, Path.join]
  split
  · exact filled
  · split
    · exact filled
    · simp [filled]
    · simp [filled]

/-- A name behind a path in a directory is next to what the path leads to. -/
theorem place_child_separated (dir : Path) {outer name : String} (filled : outer ≠ "")
    (proper : IsName name) (here : Location)
    : (dir.child (outer ++ "/" ++ name)).place here = (dir.child outer).place here ++ [name] := by
  have text : (dir.child (outer ++ "/" ++ name)).text.toList
      = (dir.child outer).text.toList ++ '/' :: name.toList := by
    rw [String.append_assoc, text_child_append dir filled, String.toList_append,
      String.toList_append]
    rfl
  have start : (dir.child (outer ++ "/" ++ name)).origin here = (dir.child outer).origin here := by
    obtain ⟨c, rest, letters⟩ := List.exists_cons_of_ne_nil
      (mt String.toList_eq_nil_iff.mp (ne_empty_text_child dir filled))
    simp only [Path.origin, Path.isAbsolute, text, letters, List.cons_append, List.head?_cons]
  rw [place_of_separator proper text, start, Path.place]

/-- A path behind a name in a directory is a path in what has the name. -/
theorem child_child (dir : Path) {name : String} (proper : IsName name) {behind : String}
    (relative : (Path.mk behind).isAbsolute = false)
    : (dir.child name).child behind = dir.child (name ++ "/" ++ behind) := by
  obtain ⟨front, _, ends⟩ := folder_child dir
  have final : (dir.child name).text.toList.getLast? = some (name.toList.getLast proper.2.1) := by
    rw [ends name proper, List.getLast?_append, List.getLast?_eq_some_getLast proper.2.1]
    rfl
  have other : name.toList.getLast proper.2.1 ≠ '/' := by
    intro same
    exact proper.1 (same ▸ List.getLast_mem proper.2.1)
  have filled : name ≠ "" := fun empty => proper.2.1 (by rw [empty]; rfl)
  have whole := text_child_append dir filled ("/" ++ behind)
  rw [← String.append_assoc] at whole
  have text : ((dir.child name).child behind).text = (dir.child name).text ++ ("/" ++ behind) := by
    rw [Path.child.eq_def (dir.child name), Path.join, relative, final]
    simp [String.append_assoc]
  exact congrArg Path.mk (text.trans whole.symm)

/-- What begins with a name is relative. -/
theorem relative_append {name : String} (proper : IsName name) (behind : String)
    : (Path.mk (name ++ behind)).isAbsolute = false := by
  have alone : (Path.mk name).isAbsolute = false := proper.isAbsolute rfl
  obtain ⟨c, rest, letters⟩ := List.exists_cons_of_ne_nil proper.2.1
  simp only [Path.isAbsolute, String.toList_append, letters, List.cons_append,
    List.head?_cons] at alone ⊢
  exact alone

/-- Names one below the other lead to the place of these names. -/
theorem place_child_names (dir : Path) {names : List String} (filled : names ≠ [])
    (proper : ∀ name ∈ names, IsName name) (here : Location)
    : (dir.child (String.intercalate "/" names)).place here = dir.place here ++ names := by
  induction names generalizing dir with
  | nil => exact absurd rfl filled
  | cons name rest ih =>
      obtain ⟨own, others⟩ := List.forall_mem_cons.mp proper
      cases rest with
      | nil =>
          rw [String.intercalate_singleton]
          exact place_child dir own here
      | cons next rest =>
          have relative : (Path.mk (String.intercalate "/" (next :: rest))).isAbsolute = false := by
            have first := (List.forall_mem_cons.mp others).1
            cases rest with
            | nil =>
                rw [String.intercalate_singleton]
                exact first.isAbsolute rfl
            | cons =>
                rw [String.intercalate_cons_cons, String.append_assoc]
                exact relative_append first _
          rw [String.intercalate_cons_cons, ← child_child dir own relative,
            ih (dir.child name) (List.cons_ne_nil _ _) others, place_child dir own,
            List.append_assoc]
          rfl

/-- What a path leads to has names. -/
theorem Location.isName_walk {place : Location} (proper : ∀ name ∈ place, IsName name)
    {pieces : List (List Char)} (free : ∀ piece ∈ pieces, '/' ∉ piece)
    : ∀ name ∈ place.walk pieces, IsName name := by
  induction pieces generalizing place with
  | nil => exact proper
  | cons piece rest ih =>
      obtain ⟨own, others⟩ := List.forall_mem_cons.mp free
      refine ih ?_ others
      intro name member
      simp only [descend] at member
      split at member
      · exact proper name member
      next counts =>
          split at member
          · exact proper name (List.dropLast_subset _ member)
          next down =>
              rcases List.mem_append.mp member with inside | last
              · exact proper name inside
              · obtain rfl := List.mem_singleton.mp last
                simpa [IsName, down] using ⟨own, not_or.mp counts⟩

theorem Path.isName_place {here : Location} (proper : ∀ name ∈ here, IsName name) (path : Path)
    : ∀ name ∈ path.place here, IsName name := by
  have start : ∀ name ∈ path.origin here, IsName name := by
    simp only [origin]
    split
    · exact List.forall_mem_nil _
    · exact proper
  exact Location.isName_walk start fun piece member =>
    not_mem_of_mem_splitFrom List.not_mem_nil member

namespace FileSystem

-----------------------------------------------------------------------------------------
-- Places that are listed once
-----------------------------------------------------------------------------------------

/-- Places are made of names, and each is listed once. -/
structure Proper (fs : FileSystem) : Prop where
  here : ∀ name ∈ fs.here, IsName name
  names : ∀ item ∈ fs.entries, ∀ name ∈ item.1, IsName name
  distinct : (fs.entries.map (·.1)).Nodup

theorem places_replace (place : Location) (entry : Entry) (entries : List (Location × Entry))
    : (replace place entry entries).map (·.1)
      = if place ∈ entries.map (·.1) then entries.map (·.1)
        else entries.map (·.1) ++ [place] := by
  induction entries with
  | nil => rfl
  | cons item rest ih =>
      obtain ⟨other, old⟩ := item
      by_cases same : other = place
      · simp [replace, same]
      · simp only [replace, same, if_false, List.map_cons, ih, List.mem_cons,
          Ne.symm same, false_or]
        split <;> rfl

section

variable {fs after : FileSystem}

theorem Proper.put (proper : fs.Proper) {place : Location} (named : ∀ name ∈ place, IsName name)
    (entry : Entry)
    : (fs.put place entry).Proper := by
  have among : ∀ other ∈ (replace place entry fs.entries).map (·.1),
      other ∈ fs.entries.map (·.1) ∨ other = place := by
    intro other member
    rw [places_replace] at member
    split at member
    · exact .inl member
    · simpa using member
  refine ⟨proper.here, fun item member => ?_, ?_⟩
  · rcases among item.1 (List.mem_map_of_mem member) with old | new
    · obtain ⟨known, inside, same⟩ := List.mem_map.mp old
      exact same ▸ proper.names known inside
    · exact new ▸ named
  · change ((replace place entry fs.entries).map (·.1)).Nodup
    rw [places_replace]
    split
    · exact proper.distinct
    next fresh =>
        refine List.nodup_append.mpr ⟨proper.distinct, List.pairwise_singleton _ _, ?_⟩
        rintro other inside _ last rfl
        exact fresh (List.mem_singleton.mp last ▸ inside)

/-- What is put where a path leads is put at a place of names. -/
theorem Proper.put_of_locate (proper : fs.Proper) {path : Path} {place : Location}
    (led : fs.locate path = .ok place) (entry : Entry)
    : (fs.put place entry).Proper := by
  refine proper.put ?_ entry
  rw [← ((locate_eq_ok_iff fs path place).mp led).2.2]
  exact Path.isName_place proper.here path

theorem Proper.filled (proper : fs.Proper) {path : Path} {bytes : List UInt8}
    (filled : fs.Filled path bytes after)
    : after.Proper := by
  obtain ⟨place, executable, led, _, rfl⟩ := filled
  exact proper.put_of_locate led _

theorem Proper.ensureDirectory (proper : fs.Proper) (path : Path)
    : (FileSystem.ensureDirectory path fs).2.Proper := by
  simp only [FileSystem.ensureDirectory]
  split
  next made =>
      obtain ⟨place, led, _, rfl⟩ := makeDirectory_eq_ok made
      exact proper.put_of_locate led _
  next => split <;> exact proper

/-- The making of a chain of directories, by induction on the number of components. -/
theorem Proper.makeChain (proper : fs.Proper) (fuel : Nat) (path : Path)
    : (FileSystem.makeChain fuel path fs).2.Proper := by
  induction fuel generalizing path fs with
  | zero => exact proper.ensureDirectory path
  | succ fuel ih =>
      simp only [FileSystem.makeChain]
      split
      · exact proper
      · split
        next parent _ _ =>
            have chain := ih proper parent
            split
            next outer made =>
                rw [made] at chain
                exact chain.ensureDirectory path
            next => exact chain
        next => exact proper.ensureDirectory path

theorem Proper.makeDirectories (proper : fs.Proper) (path : Path)
    : (FileSystem.makeDirectories path fs).2.Proper :=
  proper.makeChain _ path

end

-----------------------------------------------------------------------------------------
-- Files below directories
-----------------------------------------------------------------------------------------

/-- The names that lead from a directory to the files below it. -/
def filesFrom (fs : FileSystem) (dir : Path) : List Location :=
  (fs.listing dir).filterMap fun (names, entry) =>
    match entry with
    | .file _ _ => some names
    | .directory => none

/-- What is below a place is told by the names that lead there from the place. -/
theorem mem_below {fs : FileSystem} {place : Location} {item : Location × Entry}
    (member : item ∈ fs.below place)
    : item.1 ≠ [] ∧ (place ++ item.1, item.2) ∈ fs.entries := by
  obtain ⟨⟨whole, entry⟩, kept, rfl⟩ := List.mem_map.mp member
  obtain ⟨among, inside⟩ := List.mem_filter.mp kept
  simp only [Bool.and_eq_true, decide_eq_true_eq, List.isPrefixOf_iff_prefix] at inside
  obtain ⟨⟨names, rfl⟩, longer⟩ := inside
  simp only [List.drop_left]
  refine ⟨?_, among⟩
  rintro rfl
  simp at longer

/-- What is below a place is listed once. -/
theorem nodup_below {fs : FileSystem} (proper : fs.Proper) (place : Location)
    : ((fs.below place).map (·.1)).Nodup := by
  have distinct : fs.entries.Pairwise fun first second => first.1 ≠ second.1 :=
    List.pairwise_map.mp proper.distinct
  rw [List.Nodup, List.pairwise_map, below, List.pairwise_map]
  refine (distinct.filter _).imp_of_mem fun {first second} one other apart same => apart ?_
  obtain ⟨_, _⟩ := first
  obtain ⟨_, _⟩ := second
  obtain ⟨_, inside⟩ := List.mem_filter.mp one
  obtain ⟨_, within⟩ := List.mem_filter.mp other
  simp only [Bool.and_eq_true, List.isPrefixOf_iff_prefix] at inside within
  obtain ⟨names, rfl⟩ := inside.1
  obtain ⟨more, rfl⟩ := within.1
  simp only [List.drop_left] at same
  rw [same]

theorem mem_listing {fs : FileSystem} {dir : Path} {item : Location × Entry}
    (member : item ∈ fs.listing dir)
    : ∃ place, item ∈ fs.below place := by
  simp only [listing] at member
  split at member
  next place _ => exact ⟨place, member⟩
  next => cases member

theorem nodup_listing {fs : FileSystem} (proper : fs.Proper) (dir : Path)
    : ((fs.listing dir).map (·.1)).Nodup := by
  simp only [listing]
  split
  next place _ => exact nodup_below proper place
  next => exact List.nodup_nil

/-- A file below a directory is told by names. -/
theorem names_of_mem_filesFrom {fs : FileSystem} (proper : fs.Proper) {dir : Path}
    {names : Location} (member : names ∈ fs.filesFrom dir)
    : names ≠ [] ∧ ∀ name ∈ names, IsName name := by
  obtain ⟨⟨found, entry⟩, listed, same⟩ := List.mem_filterMap.mp member
  obtain rfl : found = names := by
    cases entry with
    | file => exact Option.some.inj same
    | directory => cases same
  obtain ⟨place, below⟩ := mem_listing listed
  obtain ⟨filled, among⟩ := mem_below below
  refine ⟨filled, fun name inside => ?_⟩
  exact proper.names _ among name (List.mem_append_right place inside)

/-- The files below a directory are listed once. -/
theorem nodup_filesFrom {fs : FileSystem} (proper : fs.Proper) (dir : Path)
    : (fs.filesFrom dir).Nodup := by
  have distinct : (fs.listing dir).Pairwise fun first second => first.1 ≠ second.1 :=
    List.pairwise_map.mp (nodup_listing proper dir)
  refine List.pairwise_filterMap.mpr (distinct.imp fun {first second} apart => ?_)
  intro names one other two
  obtain ⟨_, entry⟩ := first
  obtain ⟨_, more⟩ := second
  cases entry <;> cases one
  cases more <;> cases two
  exact apart

end FileSystem
end Publication
