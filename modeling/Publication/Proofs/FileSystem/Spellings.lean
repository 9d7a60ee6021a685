import Publication.Proofs.FileSystem.Siblings

/-! Paths in other spellings. The rules for paths look at separators and dots alone; so a spelling
of the characters beyond ASCII carries over to parents, file names, stems and names in directories.
-/

namespace Publication.Path

open Publication.Text

-----------------------------------------------------------------------------------------
-- Spelled texts
-----------------------------------------------------------------------------------------

/-- A character of ASCII. All that the rules for paths look at are. -/
def IsAscii (c : Char) : Prop := c.toNat < 0x80

instance (c : Char) : Decidable (IsAscii c) := inferInstanceAs (Decidable (c.toNat < 0x80))

theorem isAscii_slash : IsAscii '/' := by
  decide

theorem isAscii_dot : IsAscii '.' := by
  decide

/-- A way to spell characters that leaves those of ASCII as they are and brings in no others. -/
structure Spelling where
  spell : Char → List Char
  filled : ∀ c, spell c ≠ []
  ascii : ∀ {c}, IsAscii c → spell c = [c]
  ascii_mem : ∀ {m c}, IsAscii m → m ∈ spell c → c = m

namespace Spelling

variable (spelling : Spelling)

def text (s : List Char) : List Char := s.flatMap spelling.spell

def word (name : String) : String := String.ofList (spelling.text name.toList)

def path (p : Path) : Path := ⟨spelling.word p.text⟩

section

variable {s : List Char} {m : Char}

@[simp] theorem text_nil : spelling.text [] = [] := rfl

@[simp] theorem text_cons (c : Char) (s : List Char)
    : spelling.text (c :: s) = spelling.spell c ++ spelling.text s :=
  List.flatMap_cons

@[simp] theorem text_append (s t : List Char)
    : spelling.text (s ++ t) = spelling.text s ++ spelling.text t :=
  List.flatMap_append

theorem text_cons_ascii (ascii : IsAscii m) (s : List Char)
    : spelling.text (m :: s) = m :: spelling.text s := by
  rw [text_cons, spelling.ascii ascii, List.singleton_append]

theorem text_of_ascii (ascii : ∀ c ∈ s, IsAscii c) : spelling.text s = s := by
  induction s with
  | nil => rfl
  | cons c s ih =>
      obtain ⟨first, later⟩ := List.forall_mem_cons.mp ascii
      rw [spelling.text_cons_ascii first, ih later]

theorem ascii_mem_text (ascii : IsAscii m) : m ∈ spelling.text s ↔ m ∈ s := by
  rw [text, List.mem_flatMap]
  constructor
  · rintro ⟨c, among, member⟩
    exact spelling.ascii_mem ascii member ▸ among
  · exact fun among => ⟨m, among, by simp [spelling.ascii ascii]⟩

@[simp] theorem text_eq_nil : spelling.text s = [] ↔ s = [] := by
  cases s with
  | nil => simp
  | cons c s => simp [spelling.filled c]

theorem length_le_text (s : List Char) : s.length ≤ (spelling.text s).length := by
  induction s with
  | nil => exact Nat.le_refl 0
  | cons c s ih =>
      have some := List.length_pos_iff.mpr (spelling.filled c)
      rw [text_cons, List.length_append, List.length_cons]
      omega

/-- A spelled text begins with a character of ASCII only if the text does. -/
theorem text_eq_ascii_cons (ascii : IsAscii m) {rest : List Char}
    : spelling.text s = m :: rest ↔ ∃ more, s = m :: more ∧ spelling.text more = rest := by
  constructor
  · intro same
    cases s with
    | nil => cases same
    | cons c s =>
        obtain ⟨d, others, first⟩ := List.exists_cons_of_ne_nil (spelling.filled c)
        have begun : d = m := by
          rw [text_cons, first, List.cons_append] at same
          exact (List.cons.inj same).1
        obtain rfl := spelling.ascii_mem ascii (begun ▸ first ▸ List.mem_cons_self)
        rw [spelling.text_cons_ascii ascii] at same
        exact ⟨s, rfl, (List.cons.inj same).2⟩
  · rintro ⟨more, rfl, rfl⟩
    exact spelling.text_cons_ascii ascii more

/-- A spelled text ends with a character of ASCII only if the text does. -/
theorem getLast?_text (ascii : IsAscii m)
    : (spelling.text s).getLast? = some m ↔ s.getLast? = some m := by
  rcases List.eq_nil_or_concat s with rfl | ⟨front, c, rfl⟩
  · simp
  · obtain ⟨d, last⟩ : ∃ d, (spelling.spell c).getLast? = some d :=
      Option.isSome_iff_exists.mp (by simp [spelling.filled c])
    have whole : (spelling.text (front ++ [c])).getLast? = some d := by
      simp [List.getLast?_append, last]
    rw [List.concat_eq_append, whole, List.getLast?_concat, Option.some_inj, Option.some_inj]
    constructor
    · rintro rfl
      exact spelling.ascii_mem ascii (List.mem_of_getLast? last)
    · rintro rfl
      rw [spelling.ascii ascii] at last
      exact (Option.some.inj last).symm

theorem text_eq_ascii (ascii : IsAscii m) : spelling.text s = [m] ↔ s = [m] := by
  rw [spelling.text_eq_ascii_cons ascii]
  simp

@[simp] theorem toList_word (name : String)
    : (spelling.word name).toList = spelling.text name.toList := by
  rw [word, String.toList_ofList]

theorem word_of_ascii {name : String} (ascii : ∀ c ∈ name.toList, IsAscii c)
    : spelling.word name = name := by
  rw [word, spelling.text_of_ascii ascii, String.ofList_toList]

theorem word_append (name other : String)
    : spelling.word (name ++ other) = spelling.word name ++ spelling.word other := by
  simp [word]

theorem text_intercalate (pieces : List (List Char))
    : spelling.text (List.intercalate ['/'] pieces)
      = List.intercalate ['/'] (pieces.map spelling.text) := by
  induction pieces with
  | nil => simp
  | cons piece rest ih =>
      cases rest with
      | nil => simp
      | cons next rest =>
          rw [List.intercalate_cons_cons, List.map_cons, List.map_cons,
            List.intercalate_cons_cons, ← List.map_cons, ← ih]
          simp [spelling.ascii isAscii_slash]

/-- The pieces of a spelled text are spelled. -/
theorem splitOn_text (s : List Char)
    : splitOn '/' (spelling.text s) = (splitOn '/' s).map spelling.text := by
  have whole : List.intercalate ['/'] (splitOn '/' s) = s := intercalate_splitFrom [] s
  have some : (splitOn '/' s).map spelling.text ≠ [] := by
    rw [ne_eq, List.map_eq_nil_iff]
    exact splitFrom_ne_nil '/' [] s
  have free : ∀ piece ∈ (splitOn '/' s).map spelling.text, '/' ∉ piece := by
    intro piece among
    obtain ⟨own, inside, rfl⟩ := List.mem_map.mp among
    rw [spelling.ascii_mem_text isAscii_slash]
    exact not_mem_of_mem_splitFrom List.not_mem_nil inside
  nth_rewrite 1 [← whole]
  rw [text_intercalate, splitOn_intercalate some free]

theorem isPlain_text (plain : IsPlain s) : IsPlain (spelling.text s) := by
  obtain ⟨relative, named, undotted⟩ := plain
  refine ⟨fun rest same => ?_, fun same => ?_, fun rest same => ?_⟩
  · obtain ⟨more, begun, _⟩ := (spelling.text_eq_ascii_cons isAscii_slash).mp same
    exact relative more begun
  · exact named ((spelling.text_eq_ascii isAscii_dot).mp same)
  · obtain ⟨_, rfl, behind⟩ := (spelling.text_eq_ascii_cons isAscii_dot).mp same
    obtain ⟨more, rfl, _⟩ := (spelling.text_eq_ascii_cons isAscii_slash).mp behind
    exact undotted more rfl

end

-----------------------------------------------------------------------------------------
-- Paths in other spellings
-----------------------------------------------------------------------------------------

section

variable {p dir : Path} {name : String}

@[simp] theorem toList_text_path (p : Path)
    : (spelling.path p).text.toList = spelling.text p.text.toList :=
  spelling.toList_word p.text

/-- A spelled path has spelled pieces, and begins as before. -/
theorem pieces_path (p : Path)
    : (spelling.path p).pieces = (p.pieces.1, p.pieces.2.map spelling.text) := by
  by_cases plain : IsPlain p.text.toList
  · have spelled : IsPlain (spelling.path p).text.toList := by
      rw [toList_text_path]
      exact spelling.isPlain_text plain
    rw [pieces_of_isPlain plain, pieces_of_isPlain spelled, toList_text_path, splitOn_text]
  · simp only [IsPlain, not_and_or, not_forall, not_not] at plain
    have slash (rest : List Char) := spelling.text_cons_ascii isAscii_slash rest
    have dot (rest : List Char) := spelling.text_cons_ascii isAscii_dot rest
    rcases plain with ⟨rest, whole⟩ | whole | ⟨rest, whole⟩
    · simp only [pieces, toList_text_path, whole, slash, splitOn_text]
    · simp only [pieces, toList_text_path, whole, dot, text_nil, List.map_nil]
    · simp only [pieces, toList_text_path, whole, dot, slash]
      rw [← slash, splitOn_text]

theorem counts_text (piece : List Char) : counts (spelling.text piece) = counts piece := by
  have empty : (spelling.text piece).isEmpty = piece.isEmpty := by
    rw [Bool.eq_iff_iff]
    simp
  have dot : (spelling.text piece != ['.']) = (piece != ['.']) := by
    rw [Bool.eq_iff_iff]
    simp [spelling.text_eq_ascii isAscii_dot]
  rw [counts, counts, empty, dot]

theorem trimPieces_map (found : List (List Char))
    : trimPieces (found.map spelling.text) = (trimPieces found).map spelling.text := by
  induction found using List.reverseRecOn with
  | nil => rfl
  | append_singleton front piece ih =>
      have same := spelling.counts_text piece
      rw [List.map_append, List.map_singleton]
      cases counted : counts piece with
      | true =>
          rw [trimPieces_append_of_counts _ (same.trans counted),
            trimPieces_append_of_counts _ counted, List.map_append, List.map_singleton]
      | false =>
          rw [trimPieces_append_of_idle _ (same.trans counted),
            trimPieces_append_of_idle _ counted, ih]

/-- The parent of a spelled path is spelled. -/
theorem parent?_path (p : Path) : (spelling.path p).parent? = p.parent?.map spelling.path := by
  have trimmed := spelling.trimPieces_map p.pieces.2
  rcases trimPieces_cases p.pieces.2 with none | ⟨front, last, kept, _⟩
  · rw [none, List.map_nil] at trimmed
    simp only [parent?, pieces_path, none, trimmed, List.reverse_nil]
    cases p.pieces.1 <;> rfl
  · rw [kept, List.map_append, List.map_singleton] at trimmed
    have spelled : trimPieces (spelling.path p).pieces.2
        = front.map spelling.text ++ [spelling.text last] := by
      rw [pieces_path, trimmed]
    have start : spelling.text p.pieces.1.text = p.pieces.1.text := by
      cases p.pieces.1 with
      | root => exact spelling.text_cons_ascii isAscii_slash []
      | here => exact spelling.text_cons_ascii isAscii_dot []
      | plain => rfl
    rw [parent?_of_pieces kept, parent?_of_pieces spelled, pieces_path, trimPieces_map,
      Option.map_some, path, word, String.toList_ofList, text_append, start, text_intercalate]

theorem fileName?_path (p : Path)
    : (spelling.path p).fileName? = p.fileName?.map spelling.word := by
  have up (piece : List Char) : spelling.text piece = ['.', '.'] ↔ piece = ['.', '.'] := by
    rw [spelling.text_eq_ascii_cons isAscii_dot]
    simp [spelling.text_eq_ascii isAscii_dot]
  rw [fileName?_eq, fileName?_eq, pieces_path, trimPieces_map, List.getLast?_map]
  cases (trimPieces p.pieces.2).getLast? with
  | none => rfl
  | some piece =>
      simp only [Option.map_some, Option.bind_some, up]
      split
      · rfl
      · simp [word]

theorem stemOf_word (name : String)
    : stemOf (spelling.word name) = spelling.word (stemOf name) := by
  by_cases dotted : '.' ∈ name.toList
  · obtain ⟨before, after, cut, last⟩ := exists_last_dot dotted
    have spelled : (spelling.word name).toList
        = spelling.text before ++ '.' :: spelling.text after := by
      rw [toList_word, cut, text_append, spelling.text_cons_ascii isAscii_dot]
    have free : '.' ∉ spelling.text after := by rwa [spelling.ascii_mem_text isAscii_dot]
    rw [stemOf_of_last_dot cut last, stemOf_of_last_dot spelled free]
    by_cases empty : before = []
    · simp [empty]
    · simp [empty, word]
  · have free : '.' ∉ (spelling.word name).toList := by
      rwa [toList_word, spelling.ascii_mem_text isAscii_dot]
    rw [stemOf_of_not_mem dotted, stemOf_of_not_mem free]

theorem isAbsolute_path (p : Path) : (spelling.path p).isAbsolute = p.isAbsolute := by
  rw [Bool.eq_iff_iff, isAbsolute, isAbsolute, beq_iff_eq, beq_iff_eq,
    List.head?_eq_some_iff, List.head?_eq_some_iff, toList_text_path]
  simp [spelling.text_eq_ascii_cons isAscii_slash]

/-- A spelled name in a spelled directory is spelled like the whole. -/
theorem child_path (dir : Path) (name : String)
    : (spelling.path dir).child (spelling.word name) = spelling.path (dir.child name) := by
  have relative : (Path.mk (spelling.word name)).isAbsolute = (Path.mk name).isAbsolute :=
    spelling.isAbsolute_path ⟨name⟩
  have slash : spelling.word "/" = "/" := spelling.word_of_ascii (by simp [isAscii_slash])
  have ending := spelling.getLast?_text isAscii_slash (s := dir.text.toList)
  rw [child, child, join, join, relative, toList_text_path]
  split
  · rfl
  · cases last : dir.text.toList.getLast? with
    | none => simp [List.getLast?_eq_none_iff.mp last, path]
    | some c =>
        by_cases ended : c = '/'
        · simp only [ending.mpr (ended ▸ last), ended]
          simp [path, spelling.word_append]
        · cases spelled : (spelling.text dir.text.toList).getLast? with
          | none =>
              simp only [List.getLast?_eq_none_iff, text_eq_nil] at spelled
              simp [spelled] at last
          | some d =>
              have other : d ≠ '/' := by
                rintro rfl
                exact ended (Option.some.inj (last.symm.trans (ending.mp spelled)))
              simp [path, spelling.word_append, slash]

/-- A spelled path gets a spelled file name. -/
theorem withFileName_path (p : Path) (name : String)
    : (spelling.path p).withFileName (spelling.word name)
      = spelling.path (p.withFileName name) := by
  simp only [withFileName, fileName?_path, parent?_path]
  cases p.fileName? with
  | none => simp [child_path]
  | some own => cases p.parent? <;> simp [child_path]

theorem fileStem?_path (p : Path)
    : (spelling.path p).fileStem? = p.fileStem?.map spelling.word := by
  rw [fileStem?, fileStem?, fileName?_path]
  cases p.fileName? with
  | none => rfl
  | some name => simp only [Option.map_some, stemOf_word]

end

end Spelling

/-- How paths are spelled and how a spelled name is read as text. Separators are not read into it.
-/
structure Encoding extends Spelling where
  read : String → String
  read_word : ∀ name, read (toSpelling.word name) = name
  slash_of_read : ∀ {name}, '/' ∈ (read name).toList → '/' ∈ name.toList

end Publication.Path
