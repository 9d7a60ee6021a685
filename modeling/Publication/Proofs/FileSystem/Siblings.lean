import Mathlib.Data.List.DropRight
import Publication.Proofs.FileSystem.Directories

/-! Paths beside one another. A name behind a directory is one more component, and the parent of
that is the directory again; so a path with another file name has the same parent, and the same
components but for the last. The stem of a file name is what it has before its last dot.
-/

namespace Publication

open Publication.Text

namespace Path

-----------------------------------------------------------------------------------------
-- Trimmed pieces
-----------------------------------------------------------------------------------------

section

variable {front : List (List Char)} {piece : List Char}

theorem trimPieces_append_of_counts (front : List (List Char)) (counted : counts piece = true)
    : trimPieces (front ++ [piece]) = front ++ [piece] :=
  List.rdropWhile_concat_neg _ _ _ (by simp [counted])

theorem trimPieces_append_of_idle (front : List (List Char)) (idle : counts piece = false)
    : trimPieces (front ++ [piece]) = trimPieces front :=
  List.rdropWhile_concat_pos _ _ _ (by simp [idle])

/-- What is trimmed does not count, by induction on the pieces from their end. -/
theorem filter_trimPieces (found : List (List Char))
    : (trimPieces found).filter counts = found.filter counts := by
  induction found using List.reverseRecOn with
  | nil => rfl
  | append_singleton front piece ih =>
      cases counted : counts piece with
      | true => rw [trimPieces_append_of_counts front counted]
      | false => simp [trimPieces_append_of_idle front counted, ih, counted]

theorem trimPieces_trimPieces (found : List (List Char))
    : trimPieces (trimPieces found) = trimPieces found :=
  List.rdropWhile_idempotent _ _

/-- Trimmed pieces are none, or the last one counts. -/
theorem trimPieces_cases (found : List (List Char))
    : trimPieces found = []
      ∨ ∃ front last, trimPieces found = front ++ [last] ∧ counts last = true := by
  cases trimmed : (trimPieces found).reverse with
  | nil => exact .inl (List.reverse_eq_nil_iff.mp trimmed)
  | cons last before =>
      refine .inr ⟨before.reverse, last, ?_, counts_of_trimPieces trimmed⟩
      simpa using congrArg List.reverse trimmed

end

-----------------------------------------------------------------------------------------
-- Pieces and separators
-----------------------------------------------------------------------------------------

/-- A text that a path begins with its first name by: neither at the root nor at a dot. -/
def IsPlain (text : List Char) : Prop :=
  (∀ rest, text ≠ '/' :: rest) ∧ text ≠ ['.'] ∧ ∀ rest, text ≠ '.' :: '/' :: rest

theorem pieces_of_isPlain {path : Path} (plain : IsPlain path.text.toList)
    : path.pieces = (.plain, splitOn '/' path.text.toList) := by
  obtain ⟨relative, named, undotted⟩ := plain
  unfold pieces
  split
  next rest text => exact absurd text (relative rest)
  next text => exact absurd text named
  next rest text => exact absurd text (undotted rest)
  next => rfl

theorem IsPlain.append_separator {outer : List Char} (plain : IsPlain outer) (filled : outer ≠ [])
    (more : List Char)
    : IsPlain (outer ++ '/' :: more) := by
  obtain ⟨relative, named, undotted⟩ := plain
  match outer with
  | [] => exact absurd rfl filled
  | [c] =>
      refine ⟨fun rest same => ?_, by simp, fun rest same => ?_⟩
      · exact relative [] (by simpa using And.left (List.cons.inj same))
      · exact named (by simpa using And.left (List.cons.inj same))
  | c :: d :: rest =>
      refine ⟨fun _ same => ?_, by simp, fun _ same => ?_⟩
      · exact relative (d :: rest) (by simpa using And.left (List.cons.inj same))
      · simp only [List.cons_append, List.cons.injEq] at same
        exact undotted rest (by simp [same])

/-- What stands before a separator tells how a path begins and what its first pieces are, whatever
follows. Without the separator and what follows, the path begins so too, and its pieces are the
same once they are trimmed.
-/
theorem exists_pieces_of_separator (outer : List Char)
    : ∃ start front,
        (∀ (path : Path) (more : List Char),
          path.text.toList = outer ++ '/' :: more →
            path.pieces = (start, front ++ splitOn '/' more))
        ∧ ∀ path : Path,
            path.text.toList = outer → outer ≠ [] →
              path.pieces.1 = start ∧ trimPieces path.pieces.2 = trimPieces front := by
  by_cases plain : IsPlain outer
  · by_cases empty : outer = []
    · subst empty
      refine ⟨.root, [], fun path more text => ?_, fun _ _ filled => absurd rfl filled⟩
      simp [pieces, text]
    · refine ⟨.plain, splitOn '/' outer, fun path more text => ?_, fun path text _ => ?_⟩
      · rw [← splitOn_append, ← text]
        exact pieces_of_isPlain (text ▸ plain.append_separator empty more)
      · subst text
        rw [pieces_of_isPlain plain]
        exact ⟨rfl, rfl⟩
  · simp only [IsPlain, not_and_or, not_forall, not_not] at plain
    rcases plain with ⟨rest, rfl⟩ | rfl | ⟨rest, rfl⟩
    · refine ⟨.root, splitOn '/' rest, fun path more text => ?_, fun path text _ => ?_⟩
      · simp [pieces, text, splitOn_append]
      · simp [pieces, text]
    · refine ⟨.here, splitOn '/' [], fun path more text => ?_, fun path text _ => ?_⟩
      · have whole := splitOn_append '/' [] more
        simpa [pieces, text] using whole
      · simp only [pieces, text]
        decide
    · refine ⟨.here, splitOn '/' ('/' :: rest), fun path more text => ?_, fun path text _ => ?_⟩
      · have whole := splitOn_append '/' ('/' :: rest) more
        simpa [pieces, text] using whole
      · simp [pieces, text]

-----------------------------------------------------------------------------------------
-- Names in directories
-----------------------------------------------------------------------------------------

section

variable {name : String}

/-- A name in a directory is written behind it, with one separator between them. -/
theorem text_child (dir : Path) (proper : IsName name)
    : (dir.text.toList = [] ∧ (dir.child name).text.toList = name.toList)
      ∨ ∃ outer,
          (dir.child name).text.toList = outer ++ '/' :: name.toList
          ∧ (dir.text.toList = outer ++ ['/'] ∨ (dir.text.toList = outer ∧ outer ≠ [])) := by
  have relative : (Path.mk name).isAbsolute = false := proper.isAbsolute rfl
  cases ending : dir.text.toList.getLast? with
  | none =>
      refine .inl ⟨List.getLast?_eq_none_iff.mp ending, ?_⟩
      simp [child, join, relative, ending]
  | some c =>
      obtain ⟨outer, whole⟩ := List.getLast?_eq_some_iff.mp ending
      by_cases slash : c = '/'
      · subst slash
        exact .inr ⟨outer, by simp [child, join, relative, whole], .inl whole⟩
      · refine .inr ⟨dir.text.toList, ?_, .inr ⟨rfl, by simp [whole]⟩⟩
        simp [child, join, relative, ending]

theorem isPlain_of_isName (proper : IsName name) : IsPlain name.toList := by
  refine ⟨fun rest same => ?_, proper.2.2.1, fun rest same => ?_⟩
  · exact proper.1 (by simp [same])
  · exact proper.1 (by simp [same])

/-- A name in a directory is one more piece behind those of the directory. -/
theorem exists_pieces_child (dir : Path) (proper : IsName name)
    : ∃ front,
        (dir.child name).pieces = (dir.pieces.1, front ++ [name.toList])
        ∧ trimPieces front = trimPieces dir.pieces.2 := by
  have single : splitOn '/' name.toList = [name.toList] := splitOn_of_not_mem proper.1
  rcases text_child dir proper with ⟨empty, text⟩ | ⟨outer, text, ends⟩
  · have bare : dir.pieces = (.plain, [[]]) := by
      rw [pieces_of_isPlain] <;> simp [empty, IsPlain, splitOn, splitFrom]
    have plain : IsPlain (dir.child name).text.toList := text ▸ isPlain_of_isName proper
    exact ⟨[], by rw [pieces_of_isPlain plain, text, single, bare]; rfl, by rw [bare]; rfl⟩
  · obtain ⟨start, front, followed, alone⟩ := exists_pieces_of_separator outer
    have inside := followed _ _ text
    rw [single] at inside
    rcases ends with whole | ⟨whole, filled⟩
    · have outside : dir.pieces = (start, front ++ [[]]) := followed dir [] whole
      rw [outside]
      exact ⟨front, inside, (trimPieces_append_of_idle front rfl).symm⟩
    · obtain ⟨same, trimmed⟩ := alone dir whole filled
      exact ⟨front, same ▸ inside, trimmed.symm⟩

theorem counts_of_isName (proper : IsName name) : counts name.toList = true := by
  simp [counts, proper.2.1, proper.2.2.1]

theorem componentOf_of_isName (proper : IsName name) : componentOf name.toList = .name name := by
  rw [componentOf, if_neg proper.2.2.2, String.ofList_toList]

/-- The component that a path begins with, if that is none of its names. -/
def Start.components : Start → List Component
  | .root => [.root]
  | .here => [.here]
  | .plain => []

/-- The components of a path are where it begins and its trimmed pieces, as far as they count. -/
theorem components_eq (path : Path)
    : path.components
      = path.pieces.1.components ++ ((trimPieces path.pieces.2).filter counts).map componentOf := by
  rw [filter_trimPieces]
  rfl

/-- A name in a directory is one more component. -/
theorem components_child (dir : Path) (proper : IsName name)
    : (dir.child name).components = dir.components ++ [.name name] := by
  obtain ⟨front, inside, trimmed⟩ := exists_pieces_child dir proper
  have last : trimPieces (front ++ [name.toList]) = front ++ [name.toList] :=
    trimPieces_append_of_counts front (counts_of_isName proper)
  rw [components_eq, components_eq, inside, last, ← trimmed, filter_trimPieces]
  simp [counts_of_isName proper, componentOf_of_isName proper]

theorem fileName?_child (dir : Path) (proper : IsName name)
    : (dir.child name).fileName? = some name := by
  simp [fileName?, components_child dir proper]

/-- The parent of a path is told by its pieces before the last that counts. -/
theorem parent?_of_pieces {path : Path} {front : List (List Char)} {piece : List Char}
    (trimmed : trimPieces path.pieces.2 = front ++ [piece])
    : path.parent?
      = some ⟨String.ofList
          (path.pieces.1.text ++ List.intercalate ['/'] (trimPieces front))⟩ := by
  simp [parent?, trimmed]

-----------------------------------------------------------------------------------------
-- Parents and file names
-----------------------------------------------------------------------------------------

variable {path : Path}

/-- The file name is the last piece that counts, unless that leads up. -/
theorem fileName?_eq (path : Path)
    : path.fileName?
      = (trimPieces path.pieces.2).getLast?.bind fun piece =>
          if piece = ['.', '.'] then none else some (String.ofList piece) := by
  rw [fileName?, components_eq]
  rcases trimPieces_cases path.pieces.2 with none | ⟨front, last, trimmed, counted⟩
  · rw [none]
    cases start : path.pieces.1 <;> simp [Start.components]
  · rw [trimmed]
    by_cases up : last = ['.', '.']
    · subst up
      simp [counted, componentOf, ← List.append_assoc]
    · simp [counted, componentOf, up, ← List.append_assoc]

/-- The file name is the last piece that counts. -/
theorem trimPieces_of_fileName? (named : path.fileName? = some name)
    : IsName name ∧ ∃ front, trimPieces path.pieces.2 = front ++ [name.toList] := by
  refine ⟨(place_of_fileName? named).1, ?_⟩
  rw [fileName?_eq, Option.bind_eq_some_iff] at named
  obtain ⟨piece, last, same⟩ := named
  obtain ⟨front, trimmed⟩ := List.getLast?_eq_some_iff.mp last
  split at same
  next => cases same
  next =>
      cases same
      exact ⟨front, by rw [trimmed, String.toList_ofList]⟩

/-- The first pieces of a path make a path that begins in the same way. -/
theorem pieces_of_first_pieces {path dir : Path} {kept back : List (List Char)}
    (found : path.pieces.2 = kept ++ back) (more : back ≠ []) (trimmed : trimPieces kept = kept)
    (text : dir.text.toList = path.pieces.1.text ++ List.intercalate ['/'] kept)
    : dir.pieces.1 = path.pieces.1 ∧ trimPieces dir.pieces.2 = kept := by
  rcases trimmed ▸ trimPieces_cases kept with rfl | ⟨before, last, ended, counted⟩
  · rw [List.intercalate_nil, List.append_nil] at text
    cases start : path.pieces.1 <;> rw [start, Start.text] at text <;>
      simp only [pieces, text] <;> decide
  · have some : kept ≠ [] := by simp [ended]
    have whole : path.text.toList = dir.text.toList ++ '/' :: List.intercalate ['/'] back := by
      rw [path.text_eq_pieces, found, intercalate_append some more, text, List.append_assoc]
    have filled : dir.text.toList ≠ [] := by
      obtain ⟨c, _, first⟩ : ∃ c rest, last = c :: rest := by
        cases last with
        | nil => cases counted
        | cons c rest => exact ⟨c, rest, rfl⟩
      have member : c ∈ List.intercalate ['/'] kept :=
        mem_intercalate (by simp [ended]) (first ▸ List.mem_cons_self)
      exact List.ne_nil_of_mem (text ▸ List.mem_append_right _ member)
    have free : ∀ piece ∈ back, '/' ∉ piece := fun piece among =>
      not_mem_of_mem_pieces (found ▸ List.mem_append_right kept among)
    obtain ⟨start, front, followed, alone⟩ := exists_pieces_of_separator dir.text.toList
    have inside := followed path _ whole
    rw [splitOn_intercalate more free] at inside
    obtain ⟨same, others⟩ := alone dir rfl filled
    rw [inside] at found
    obtain rfl : front = kept := List.append_cancel_right found
    exact ⟨by rw [same, inside], others.trans trimmed⟩

/-- The parent of a path begins as the path does, with its pieces before the last that counts. -/
theorem exists_parent?_of_trimPieces {front : List (List Char)} {piece : List Char}
    (trimmed : trimPieces path.pieces.2 = front ++ [piece])
    : ∃ dir,
        path.parent? = some dir
        ∧ dir.pieces.1 = path.pieces.1
        ∧ trimPieces dir.pieces.2 = trimPieces front
        ∧ dir.text.toList = path.pieces.1.text ++ List.intercalate ['/'] (trimPieces front) := by
  obtain ⟨junk, found⟩ := exists_eq_trimPieces path.pieces.2
  obtain ⟨passed, rest⟩ := exists_eq_trimPieces front
  have cut : path.pieces.2 = trimPieces front ++ (passed ++ piece :: junk) := by
    rw [found, trimmed]
    nth_rewrite 1 [rest]
    simp
  have named := parent?_of_pieces trimmed
  generalize whole : Path.mk (String.ofList _) = dir at named
  have text : dir.text.toList
      = path.pieces.1.text ++ List.intercalate ['/'] (trimPieces front) := by
    rw [← whole, String.toList_ofList]
  obtain ⟨start, kept⟩ :=
    pieces_of_first_pieces cut (by simp) (trimPieces_trimPieces front) text
  exact ⟨dir, named, start, kept, text⟩

/-- A path with a file name is in its parent, and so is every other name there. -/
theorem exists_parent?_of_fileName? (named : path.fileName? = some name)
    : ∃ dir,
        path.parent? = some dir
        ∧ path.components = dir.components ++ [.name name]
        ∧ ∀ other, IsName other → (dir.child other).parent? = some dir := by
  obtain ⟨proper, front, trimmed⟩ := trimPieces_of_fileName? named
  obtain ⟨dir, around, start, kept, text⟩ := exists_parent?_of_trimPieces trimmed
  refine ⟨dir, around, ?_, fun other own => ?_⟩
  · rw [components_eq, components_eq, start, kept, trimmed, filter_trimPieces]
    simp [counts_of_isName proper, componentOf_of_isName proper]
  · obtain ⟨before, inside, same⟩ := exists_pieces_child dir own
    have last : trimPieces (dir.child other).pieces.2 = before ++ [other.toList] := by
      rw [inside, trimPieces_append_of_counts before (counts_of_isName own)]
    rw [parent?_of_pieces last, inside, start, same, kept, ← text, String.ofList_toList]

/-- A path with another file name is in the same directory, and so differs from it in its last
component.
-/
theorem withFileName_of_fileName? {other : String} (named : path.fileName? = some name)
    (proper : IsName other)
    : ∃ front,
        path.components = front ++ [.name name]
        ∧ (path.withFileName other).components = front ++ [.name other]
        ∧ (path.withFileName other).parent? = path.parent? := by
  obtain ⟨dir, around, last, inside⟩ := exists_parent?_of_fileName? named
  have there : path.withFileName other = dir.child other := by
    simp only [withFileName, named, around]
  rw [there, around]
  exact ⟨dir.components, last, components_child dir proper, inside other proper⟩

/-- A path with another file name has that file name. -/
theorem fileName?_withFileName {other : String} (path : Path) (proper : IsName other)
    : (path.withFileName other).fileName? = some other := by
  simp only [withFileName]
  split
  · exact fileName?_child _ proper
  · exact fileName?_child _ proper

/-- A path with a file name that is not its own is another path. -/
theorem components_withFileName_ne {other : String} (proper : IsName other)
    (apart : path.fileName? ≠ some other)
    : (path.withFileName other).components ≠ path.components := by
  intro same
  have named := fileName?_withFileName path proper
  rw [fileName?, same] at named
  exact apart named

/-- A path with another file name leads to that in some directory. -/
theorem exists_place_withFileName {other : String} (path : Path) (proper : IsName other)
    (here : Location)
    : ∃ dir, (path.withFileName other).place here = dir ++ [other] :=
  (place_of_fileName? (fileName?_withFileName path proper)).2 here

/-- A path with a file name that is not its own leads elsewhere. -/
theorem place_withFileName_ne {other : String} (proper : IsName other)
    (apart : path.fileName? ≠ some other) (here : Location)
    : (path.withFileName other).place here ≠ path.place here := by
  cases named : path.fileName? with
  | none =>
      have below : path.withFileName other = path.child other := by
        simp only [withFileName, named]
      rw [below, place_child path proper]
      simp
  | some name =>
      obtain ⟨_, there⟩ := exists_place_withFileName path proper here
      obtain ⟨_, own⟩ := (place_of_fileName? named).2 here
      rw [there, own]
      intro same
      exact apart (named.trans (congrArg some (List.append_singleton_inj.mp same).2.symm))

-----------------------------------------------------------------------------------------
-- Stems
-----------------------------------------------------------------------------------------

/-- What a file name does not hold its stem does not hold. -/
theorem not_mem_stemOf {c : Char} (absent : c ∉ name.toList) : c ∉ (stemOf name).toList := by
  simp only [stemOf]
  split
  next before rest cut =>
      split
      · exact absent
      · intro member
        rw [String.toList_ofList, List.mem_reverse] at member
        have inside : c ∈ name.toList.reverse.dropWhile (· ≠ '.') := by
          rw [cut]
          exact List.mem_cons_of_mem _ member
        exact absent (List.mem_reverse.mp ((List.dropWhile_sublist _).subset inside))
  next => exact absent

/-- A stem goes up to the last dot, unless nothing stands before that. -/
theorem stemOf_of_last_dot {before after : List Char} (cut : name.toList = before ++ '.' :: after)
    (last : '.' ∉ after)
    : stemOf name = if before = [] then name else String.ofList before := by
  have behind : ∀ c ∈ after.reverse, decide (c ≠ '.') = true := by
    intro c member
    have other : c ≠ '.' := fun same => last (same ▸ List.mem_reverse.mp member)
    simpa using other
  have found : name.toList.reverse.dropWhile (· ≠ '.') = '.' :: before.reverse := by
    rw [cut, List.reverse_append, List.reverse_cons, List.append_assoc,
      List.dropWhile_append_of_pos behind]
    simp
  simp only [stemOf, found, List.isEmpty_reverse, List.isEmpty_iff, List.reverse_reverse]

theorem stemOf_of_not_mem (free : '.' ∉ name.toList) : stemOf name = name := by
  have none : name.toList.reverse.dropWhile (· ≠ '.') = [] := by
    refine List.dropWhile_eq_nil_iff.mpr fun c member => ?_
    have other : c ≠ '.' := fun same => free (same ▸ List.mem_reverse.mp member)
    simpa using other
  simp only [stemOf, none]

/-- A text with dots has a last one. -/
theorem exists_last_dot {s : List Char} (dotted : '.' ∈ s)
    : ∃ before after, s = before ++ '.' :: after ∧ '.' ∉ after := by
  obtain ⟨front, back, whole, first⟩ := List.eq_append_cons_of_mem (List.mem_reverse.mpr dotted)
  refine ⟨back.reverse, front.reverse, ?_, by simpa using first⟩
  simpa using congrArg List.reverse whole

end

end Path
end Publication
