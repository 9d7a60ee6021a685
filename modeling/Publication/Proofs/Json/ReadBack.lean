import Publication.Json.Structure
import Publication.Proofs.Json.Scalars

/-! What is written of a value is read back, by a reader for values of that shape, at any depth and
whatever follows. A reader for a sequence or a structure does so if those for its parts do.
-/

namespace Publication.Json

-----------------------------------------------------------------------------------------
-- Space
-----------------------------------------------------------------------------------------

/-- Space at the beginning of a line does not count. -/
theorem skipSpace_indent (depth : Nat) (s : List Char)
    : skipSpace (indent depth ++ s) = skipSpace s := by
  refine List.dropWhile_append_of_pos fun c member => ?_
  rcases List.mem_cons.mp member with rfl | space
  · rfl
  · rw [List.eq_of_mem_replicate space]
    rfl

/-- A text that begins neither with space nor with the bracket that ends a sequence. -/
def Solid (s : List Char) : Prop := ∃ c rest, s = c :: rest ∧ isSpace c = false ∧ c ≠ ']'

theorem Solid.append {s : List Char} (solid : Solid s) (rest : List Char) : Solid (s ++ rest) := by
  obtain ⟨c, more, rfl, ink, other⟩ := solid
  exact ⟨c, more ++ rest, rfl, ink, other⟩

theorem Solid.skipSpace {s : List Char} (solid : Solid s) : skipSpace s = s := by
  obtain ⟨c, rest, rfl, ink, _⟩ := solid
  simp [Json.skipSpace, ink]

/-- A value is written without space in front, one case for each kind of value. -/
theorem solid_write (depth : Nat) (value : Value) : Solid (write depth value) := by
  cases value with
  | null => exact ⟨_, _, rfl, rfl, by decide⟩
  | boolean value => cases value <;> exact ⟨_, _, rfl, rfl, by decide⟩
  | number n =>
      obtain ⟨d, rest, digits, digit⟩ := exists_toDigits_eq_cons n
      refine ⟨d, rest, by rw [write, digits], ?_, ne_of_isDigit digit rfl⟩
      simp [isSpace, ne_of_isDigit digit]
  | string text => exact ⟨_, _, rfl, rfl, by decide⟩
  | array items => cases items <;> exact ⟨_, _, rfl, rfl, by decide⟩
  | object fields => cases fields <;> exact ⟨_, _, rfl, rfl, by decide⟩

-----------------------------------------------------------------------------------------
-- Single values
-----------------------------------------------------------------------------------------

/-- A reader takes a written value off a text, behind any space and before anything that may follow
a value.
-/
def ReadsBack {α : Type} (read : Reader α) (value : Value) (a : α) : Prop :=
  ∀ depth s rest, Ends rest → skipSpace s = write depth value ++ rest → read s = .ok (a, rest)

theorem readsBack_string (text : String) : ReadsBack readString (.string text) text := by
  intro depth s rest _ written
  rw [write, quoted, List.append_assoc, List.singleton_append] at written
  simp [readString, written, readStart, readText_quoted, Except.map]

theorem readsBack_bool (value : Bool) : ReadsBack readBool (.boolean value) value := by
  intro depth s rest _ written
  cases value <;> rw [write] at written <;> simp [readBool, written, readStart, word, Except.map]

theorem readsBack_octet {n : Nat} (octet : n < 256) : ReadsBack readOctet (.number n) n := by
  intro depth s rest ends written
  have whole := readNumber_toDigits (n := n) (Nat.lt_trans octet (by decide)) ends
  rw [write] at written
  have start : readStart (Nat.toDigits 10 n ++ rest) = .ok (.integer n, rest) := by
    obtain ⟨d, more, digits, digit⟩ := exists_toDigits_eq_cons n
    rw [digits, List.cons_append] at whole ⊢
    simp [readStart, ne_of_isDigit digit, digit, whole]
  have fits : (0 : Int) ≤ n ∧ (n : Int) < 256 := by omega
  simp [readOctet, written, start, fits]

/-- A missing value is written as null. -/
theorem readsBack_none {α : Type} (read : Reader α) : ReadsBack (readOption read) .null none := by
  intro depth s rest _ written
  rw [write] at written
  simp [readOption, written, word, Except.map]

/-- A value that does not begin as null does is read as one that is there. -/
theorem ReadsBack.some {α : Type} {read : Reader α} {value : Value} {a : α}
    (back : ReadsBack read value a) (other : ∀ depth, (write depth value).head? ≠ some 'n')
    : ReadsBack (readOption read) value (some a) := by
  intro depth s rest ends written
  obtain ⟨c, more, first, _⟩ := solid_write depth value
  have letter : c ≠ 'n' := fun same => other depth (by rw [first, same]; rfl)
  have solid := ((solid_write depth value).append rest).skipSpace
  have found := back depth _ rest ends solid
  rw [first, List.cons_append] at written found
  simp [readOption, written, letter, found, Except.map]

/-- What is read back may be put to use. -/
theorem ReadsBack.map {α β : Type} {read : Reader α} {value : Value} {a : α}
    (back : ReadsBack read value a) (f : α → β)
    : ReadsBack (fun s => (read s).map fun (x, s) => (f x, s)) value (f a) := by
  intro depth s rest ends written
  simp [back depth s rest ends written, Except.map]

-----------------------------------------------------------------------------------------
-- Brackets
-----------------------------------------------------------------------------------------

theorem readStart_bracket (rest : List Char) : readStart ('[' :: rest) = .ok (.sequence, rest) :=
  rfl

theorem readStart_brace (rest : List Char) : readStart ('{' :: rest) = .ok (.map, rest) := rfl

theorem close_cons {bracket : Char} (ink : isSpace bracket = false) (rest : List Char)
    : close bracket (bracket :: rest) = .ok rest := by
  have same : skipSpace (bracket :: rest) = bracket :: rest := by simp [skipSpace, ink]
  simp [close, same]

theorem close_indent {bracket : Char} (ink : isSpace bracket = false) (depth : Nat)
    (rest : List Char)
    : close bracket (indent depth ++ bracket :: rest) = .ok rest := by
  rw [close, skipSpace_indent]
  exact close_cons ink rest

-----------------------------------------------------------------------------------------
-- Sequences
-----------------------------------------------------------------------------------------

theorem nextItem_first {s : List Char} (solid : Solid s) (depth : Nat)
    : nextItem true (indent depth ++ s) = .ok (some s) := by
  have same := solid.skipSpace
  obtain ⟨c, rest, rfl, _, other⟩ := solid
  simp [nextItem, skipSpace_indent, same]

theorem nextItem_comma {s : List Char} (solid : Solid s) (depth : Nat)
    : nextItem false (',' :: (indent depth ++ s)) = .ok (some s) := by
  have same := solid.skipSpace
  obtain ⟨c, rest, rfl, _, other⟩ := solid
  have comma : skipSpace (',' :: (indent depth ++ c :: rest)) = ',' :: (indent depth ++ c :: rest)
    := rfl
  simp [nextItem, comma, skipSpace_indent, same, other]

theorem nextItem_close (first : Bool) (depth : Nat) (rest : List Char)
    : nextItem first (indent depth ++ ']' :: rest) = .ok none := by
  have bracket : skipSpace (']' :: rest) = ']' :: rest := rfl
  simp [nextItem, skipSpace_indent, bracket]

/-- An item ends where others or the bracket follow. -/
theorem ends_writeItems (depth outer : Nat) (values : List Value) (rest : List Char)
    : Ends (writeItems depth values ++ (indent outer ++ rest)) := by
  cases values with
  | nil => exact ends_newline _
  | cons value values => exact ends_comma _

/-- Each item takes at least one place. -/
theorem length_le_writeItems (depth : Nat) (values : List Value)
    : values.length ≤ (writeItems depth values).length := by
  induction values with
  | nil => simp
  | cons value values ih =>
      simp only [writeItems, List.cons_append, List.length_append, List.length_cons]
      omega

section

variable {α : Type} {read : Reader α} {value : α → Value}

/-- One item is read, whatever stands before it. -/
theorem readItems_step {depth : Nat} {a : α} {s rest : List Char} (fuel : Nat) (done : List α)
    (back : ReadsBack read (value a) a) (ends : Ends rest)
    (next : nextItem done.isEmpty s = .ok (some (write depth (value a) ++ rest)))
    : readItems read (fuel + 1) done s = readItems read fuel (a :: done) rest := by
  have found := back depth _ rest ends ((solid_write depth (value a)).append rest).skipSpace
  simp [readItems, next, found]

/-- Items behind the first one are read up to the bracket, by induction on them. -/
theorem readItems_written (depth outer : Nat) {items : List α}
    (back : ∀ a ∈ items, ReadsBack read (value a) a) {done : List α} (begun : done ≠ [])
    (rest : List Char) {fuel : Nat} (enough : items.length < fuel)
    : readItems read fuel done
        (writeItems depth (items.map value) ++ (indent outer ++ ']' :: rest))
      = .ok (done.reverse ++ items, rest) := by
  induction items generalizing done fuel with
  | nil =>
      obtain ⟨fuel, rfl⟩ := Nat.exists_eq_add_one.mpr enough
      simp [readItems, writeItems, nextItem_close, close_indent, isSpace, Except.map]
  | cons a items ih =>
      obtain ⟨fuel, rfl⟩ := Nat.exists_eq_add_one.mpr (Nat.zero_lt_of_lt enough)
      have ends := ends_writeItems depth outer (items.map value) (']' :: rest)
      have next := nextItem_comma ((solid_write depth (value a)).append
        (writeItems depth (items.map value) ++ (indent outer ++ ']' :: rest))) depth
      rw [← List.isEmpty_eq_false_iff.mpr begun] at next
      have one := readItems_step fuel done (back a List.mem_cons_self) ends next
      have all := ih (fun a member => back a (List.mem_cons_of_mem _ member))
        (List.cons_ne_nil a done) (Nat.lt_of_succ_lt_succ enough)
      simp only [List.map_cons, writeItems, List.cons_append, List.append_assoc]
      rw [one, all]
      simp

/-- A sequence is read back if its items are. -/
theorem readsBack_sequence {items : List α} (back : ∀ a ∈ items, ReadsBack read (value a) a)
    : ReadsBack (readSequence read) (.array (items.map value)) items := by
  intro depth s rest ends written
  cases items with
  | nil =>
      rw [List.map_nil, write] at written
      have bracket : skipSpace (']' :: rest) = ']' :: rest := rfl
      simp [readSequence, written, readStart_bracket, readItems, nextItem, bracket, close_cons,
        isSpace, Except.map]
  | cons a items =>
      simp only [List.map_cons, write, List.cons_append, List.append_assoc, List.nil_append]
        at written
      have ends := ends_writeItems (depth + 1) depth (items.map value) (']' :: rest)
      have next := nextItem_first ((solid_write (depth + 1) (value a)).append
        (writeItems (depth + 1) (items.map value) ++ (indent depth ++ ']' :: rest))) (depth + 1)
      have others (a' : α) (member : a' ∈ items) : ReadsBack read (value a') a' :=
        back a' (List.mem_cons_of_mem _ member)
      have places := length_le_writeItems (depth + 1) (items.map value)
      rw [List.length_map] at places
      simp only [readSequence, written, readStart_bracket]
      refine (readItems_step _ [] (back a List.mem_cons_self) ends next).trans ?_
      refine readItems_written (depth + 1) depth others (List.cons_ne_nil a []) rest ?_
      simp only [List.length_append, List.length_cons]
      omega

end

-----------------------------------------------------------------------------------------
-- Structures
-----------------------------------------------------------------------------------------

/-- Reading the values of fields, one after another, takes a structure to another one. -/
inductive Fills {α : Type} : List (Member α) → α → List Value → α → Prop
  | nil (a : α) : Fills [] a [] a
  | cons {member : Member α} {members : List (Member α)} {a b c : α} {value : Value}
      {values : List Value} (back : ReadsBack (member.read a) value b)
      (rest : Fills members b values c)
      : Fills (member :: members) a (value :: values) c

/-- A field whose value is put into the structure. -/
theorem Fills.put {α β : Type} (put : α → β → α) {read : Reader β} {key : String} {optional : Bool}
    {members : List (Member α)} {a c : α} {x : β} {value : Value} {values : List Value}
    (back : ReadsBack read value x) (rest : Fills members (put a x) values c)
    : Fills
        (⟨key, optional, fun a s => (read s).map fun (x, s) => (put a x, s)⟩ :: members) a
        (value :: values) c :=
  .cons (back.map (put a)) rest

section

variable {α : Type} {wanted : String} {a b : α} {members : List (Member α)} {values : List Value}

theorem Fills.length_eq (fills : Fills members a values b) : members.length = values.length := by
  induction fills with
  | nil => rfl
  | cons _ _ ih => rw [List.length_cons, List.length_cons, ih]

/-- Values behind the first one are read up to the bracket, by induction on the fields. -/
theorem readValues_written (fills : Fills members a values b) (depth outer : Nat) {index : Nat}
    (begun : index ≠ 0) (rest : List Char)
    : readValues wanted members index a
        (writeItems depth values ++ (indent outer ++ ']' :: rest))
      = .ok (b, rest) := by
  induction fills generalizing index with
  | nil a => simp [readValues, writeItems, close_indent, isSpace, Except.map]
  | @cons member members a b c value values back fills ih =>
      have ends := ends_writeItems depth outer values (']' :: rest)
      have solid := (solid_write depth value).append
        (writeItems depth values ++ (indent outer ++ ']' :: rest))
      have next := nextItem_comma solid depth
      have found := back depth _ _ ends solid.skipSpace
      simp only [writeItems, List.cons_append, List.append_assoc]
      simp [readValues, begun, next, found, ih]

/-- A tuple is read back if its values are. -/
theorem readsBack_tuple (fills : Fills members a values b)
    : ReadsBack (readTuple members a) (.array values) b := by
  intro depth s rest _ written
  cases fills with
  | nil a =>
      rw [write] at written
      simp [readTuple, written, readStart_bracket, readValues, close_cons, isSpace, Except.map]
  | @cons member members a b c value values back fills =>
      simp only [write, List.cons_append, List.append_assoc, List.nil_append] at written
      have ends := ends_writeItems (depth + 1) depth values (']' :: rest)
      have solid := (solid_write (depth + 1) value).append
        (writeItems (depth + 1) values ++ (indent depth ++ ']' :: rest))
      have next := nextItem_first solid (depth + 1)
      have found := back (depth + 1) _ _ ends solid.skipSpace
      simp only [readTuple, written, readStart_bracket, readValues, decide_true, next, found]
      exact readValues_written fills (depth + 1) depth Nat.one_ne_zero rest

end

-----------------------------------------------------------------------------------------
-- Objects
-----------------------------------------------------------------------------------------

theorem nextKey_first (depth : Nat) (s : List Char)
    : nextKey true (indent depth ++ '"' :: s) = .ok (some s) := by
  have quote : skipSpace ('"' :: s) = '"' :: s := rfl
  simp [nextKey, skipSpace_indent, quote]

theorem nextKey_comma (depth : Nat) (s : List Char)
    : nextKey false (',' :: (indent depth ++ '"' :: s)) = .ok (some s) := by
  have quote : skipSpace ('"' :: s) = '"' :: s := rfl
  have comma : skipSpace (',' :: (indent depth ++ '"' :: s)) = ',' :: (indent depth ++ '"' :: s)
    := rfl
  simp [nextKey, comma, skipSpace_indent, quote]

theorem nextKey_close (first : Bool) (depth : Nat) (rest : List Char)
    : nextKey first (indent depth ++ '}' :: rest) = .ok none := by
  have brace : skipSpace ('}' :: rest) = '}' :: rest := rfl
  simp [nextKey, skipSpace_indent, brace]

theorem ends_writeFields (depth outer : Nat) (fields : List (String × Value)) (rest : List Char)
    : Ends (writeFields depth fields ++ (indent outer ++ rest)) := by
  cases fields with
  | nil => exact ends_newline _
  | cons field fields => exact ends_comma _

/-- Each field takes at least one place. -/
theorem length_le_writeFields (depth : Nat) (fields : List (String × Value))
    : fields.length ≤ (writeFields depth fields).length := by
  induction fields with
  | nil => simp
  | cons field fields ih =>
      simp only [writeFields, List.cons_append, List.length_append, List.length_cons]
      omega

/-- Among fields of different keys each is found by its key, by induction on them. -/
theorem find?_key {α : Type} {members : List (Member α)} {member : Member α}
    (distinct : (members.map (·.key)).Nodup) (among : member ∈ members)
    : members.find? (·.key = member.key) = some member := by
  induction members with
  | nil => cases among
  | cons first members ih =>
      obtain ⟨apart, distinct⟩ := List.nodup_cons.mp distinct
      rcases List.mem_cons.mp among with rfl | among
      · simp
      · have other : first.key ≠ member.key := fun same =>
          apart (List.mem_map.mpr ⟨member, among, same.symm⟩)
        simpa [other] using ih distinct among

section

variable {α : Type} {member : Member α} {members : List (Member α)} {a b : α} {value : Value}
  {values : List Value}

/-- The keys that were seen when the fields before others were read. -/
def seenKeys (done : List (Member α)) : List String := (done.map (·.key)).reverse

/-- One field is read, whatever stands before its key. -/
theorem readMembers_step {depth : Nat} {s rest : List Char} (fuel : Nat) (done : List (Member α))
    (distinct : ((done ++ member :: members).map (·.key)).Nodup)
    (back : ReadsBack (member.read a) value b) (ends : Ends rest)
    (next
      : nextKey (seenKeys done).isEmpty s
        = .ok (some (member.key.toList.flatMap escaped
            ++ '"' :: ':' :: ' ' :: (write depth value ++ rest))))
    : readMembers (done ++ member :: members) (fuel + 1) (seenKeys done) a s
      = readMembers (done ++ member :: members) fuel (seenKeys (done ++ [member])) b rest := by
  have found := find?_key distinct (List.mem_append_right done List.mem_cons_self)
  have new : (seenKeys done).contains member.key = false := by
    rw [List.map_append, List.map_cons, List.nodup_append] at distinct
    refine Bool.eq_false_iff.mpr fun seen => ?_
    have before := List.mem_reverse.mp (List.contains_iff_mem.mp seen)
    exact distinct.2.2 _ before _ List.mem_cons_self rfl
  have more : member.key :: seenKeys done = seenKeys (done ++ [member]) := by simp [seenKeys]
  have colon (s : List Char) : behindColon (':' :: s) = .ok s := rfl
  have space := ((solid_write depth value).append rest).skipSpace
  have taken := back depth (' ' :: (write depth value ++ rest)) rest ends space
  simp only [readMembers, next, readText_quoted, found, new, Bool.false_eq_true, if_false, colon,
    taken, more]

/-- Fields behind the first one are read up to the brace, by induction on them. -/
theorem readMembers_written (fills : Fills members a values b) (depth outer : Nat)
    {done : List (Member α)} (begun : done ≠ [])
    (distinct : ((done ++ members).map (·.key)).Nodup) (rest : List Char) {fuel : Nat}
    (enough : members.length < fuel)
    : readMembers (done ++ members) fuel (seenKeys done) a
        (writeFields depth ((members.map (·.key)).zip values) ++ (indent outer ++ '}' :: rest))
      = .ok (b, rest) := by
  induction fills generalizing done fuel with
  | nil a =>
      obtain ⟨fuel, rfl⟩ := Nat.exists_eq_add_one.mpr enough
      have complete
          : (done.find? fun member => !member.optional && !(seenKeys done).contains member.key)
            = none := by
        refine List.find?_eq_none.mpr fun member among wanted => ?_
        have seen : (seenKeys done).contains member.key = true :=
          List.contains_iff_mem.mpr (List.mem_reverse.mpr (List.mem_map_of_mem among))
        rw [seen, Bool.not_true, Bool.and_false] at wanted
        cases wanted
      simp only [readMembers, writeFields, List.map_nil, List.zip_nil_left, List.nil_append,
        List.append_nil, nextKey_close, complete]
      rw [close_indent rfl]
      rfl
  | @cons member members a b c value values back fills ih =>
      obtain ⟨fuel, rfl⟩ := Nat.exists_eq_add_one.mpr (Nat.zero_lt_of_lt enough)
      have ends := ends_writeFields depth outer ((members.map (·.key)).zip values) ('}' :: rest)
      have seen : (seenKeys done).isEmpty = false := by
        simpa [seenKeys] using begun
      have next := nextKey_comma depth (member.key.toList.flatMap escaped
        ++ '"' :: ':' :: ' ' :: (write depth value
          ++ (writeFields depth ((members.map (·.key)).zip values)
            ++ (indent outer ++ '}' :: rest))))
      rw [← seen] at next
      have one := readMembers_step fuel done distinct back ends next
      have shift : done ++ member :: members = (done ++ [member]) ++ members := by simp
      have all := ih (List.append_ne_nil_of_right_ne_nil done (List.cons_ne_nil member []))
        (shift ▸ distinct) (Nat.lt_of_succ_lt_succ enough)
      rw [← shift] at all
      simp only [List.map_cons, List.zip_cons_cons, writeFields, quoted, List.cons_append,
        List.append_assoc, List.nil_append]
      rw [one, all]

/-- An object is read back if the values of its fields are, and no two fields are of one key. -/
theorem readsBack_structure (name : String) (fills : Fills members a values b)
    (distinct : (members.map (·.key)).Nodup)
    : ReadsBack (readStructure name members a) (.object ((members.map (·.key)).zip values)) b := by
  intro depth s rest _ written
  cases fills with
  | nil a =>
      rw [List.map_nil, List.zip_nil_left, write] at written
      have brace : skipSpace ('}' :: rest) = '}' :: rest := rfl
      simp [readStructure, written, readStart_brace, readMembers, nextKey, brace, close_cons,
        isSpace, Except.map]
  | @cons member members a b c value values back fills =>
      simp only [List.map_cons, List.zip_cons_cons, write, quoted, List.cons_append,
        List.append_assoc, List.nil_append] at written
      have ends := ends_writeFields (depth + 1) depth ((members.map (·.key)).zip values)
        ('}' :: rest)
      have next := nextKey_first (depth + 1) (member.key.toList.flatMap escaped
        ++ '"' :: ':' :: ' ' :: (write (depth + 1) value
          ++ (writeFields (depth + 1) ((members.map (·.key)).zip values)
            ++ (indent depth ++ '}' :: rest))))
      have places := length_le_writeFields (depth + 1) ((members.map (·.key)).zip values)
      simp only [readStructure, written, readStart_brace]
      refine (readMembers_step _ [] distinct back ends next).trans ?_
      refine readMembers_written fills (depth + 1) depth (List.cons_ne_nil member []) distinct
        rest ?_
      rw [List.length_zip, List.length_map, ← fills.length_eq, Nat.min_self] at places
      simp only [List.length_append, List.length_cons]
      omega

end

-----------------------------------------------------------------------------------------
-- Whole texts
-----------------------------------------------------------------------------------------

/-- A value that was written is read from its text, and so with a line feed behind it. -/
theorem ReadsBack.readAll {α : Type} {read : Reader α} {value : Value} {a : α}
    (back : ReadsBack read value a) (tail : String) (blank : tail = "" ∨ tail = "\n")
    : readAll read (pretty value ++ tail) = .ok a := by
  have found : read (write 0 value ++ tail.toList) = .ok (a, tail.toList) := by
    refine back 0 _ _ ?_ ((solid_write 0 value).append _).skipSpace
    rcases blank with rfl | rfl
    · exact ends_nil
    · exact ends_newline []
  have ended : (skipSpace tail.toList).isEmpty = true := by
    rcases blank with rfl | rfl <;> rfl
  simp [Json.readAll, pretty, found, ended]

end Publication.Json
