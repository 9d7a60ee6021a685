import Publication.Proofs.Header.Values
import Publication.Proofs.Text.Pieces

/-! Layouts of headers. A header is read entry by entry, each a key with what stands on its line and
on the further lines behind it; so a key has the trimmed contents of its entries as its values, in
order, wherever the entries and their contents stand. Every text is laid out like this.
-/

namespace Publication.Header

open Publication.Text

-----------------------------------------------------------------------------------------
-- Layouts
-----------------------------------------------------------------------------------------

/-- A line that carries a further value: behind four spaces something that is not blank. What stands
on a line has any blanks around it, and the carriage return of its break is one of them.
-/
structure Further where
  content : List Char
  line : '\n' ∉ content
  shown : allBlank content = false

def Further.front : List Char := List.replicate 4 ' '

def Further.text (further : Further) : List Char := front ++ further.content ++ ['\n']

/-- A key with what stands behind it on its line, perhaps nothing, and the further lines. -/
structure Entry where
  indent : Fin 4
  key : String
  named : key.toList ≠ []
  word : ∀ c ∈ key.toList, isKeyChar c = true
  content : List Char
  line : '\n' ∉ content
  further : List Further

namespace Entry

/-- What stands before the content on the line of the key. -/
def front (entry : Entry) : List Char :=
  List.replicate entry.indent ' ' ++ entry.key.toList ++ [':']

def text (entry : Entry) : List Char :=
  entry.front ++ entry.content ++ ['\n'] ++ entry.further.flatMap Further.text

def contents (entry : Entry) : List (List Char) :=
  entry.content :: entry.further.map (·.content)

def values (entry : Entry) : List String :=
  entry.contents.map fun content => String.ofList (trim content)

/-- What is pushed for an entry. -/
def fields (entry : Entry) : List (String × String) :=
  entry.values.map fun value => (normalKey entry.key, value)

end Entry

/-- A header does not go on with a text: its first line ends the header, or is neither one of a key
nor, where an entry is begun, one with a further value.
-/
def Stops (begun : Prop) (rest : List Char) : Prop :=
  ∀ line ∈ (lines rest).head?,
    isEnd (withoutBreak line) = true
    ∨ keyLine? (withoutBreak line) = none ∧ (begun → continuation? (withoutBreak line) = none)

theorem Stops.imp {begun other : Prop} {rest : List Char} (weaker : other → begun)
    (stops : Stops begun rest)
    : Stops other rest :=
  fun line member =>
    (stops line member).imp_right fun ⟨noKey, noMore⟩ => ⟨noKey, fun given => noMore (weaker given)⟩

/-- A header with the blanks behind the dashes that open it, if there are any, and with the text
behind its last entry. The header does not go on with that text, nor is it opened by it.
-/
structure Layout where
  opening : Option (List Char)
  opened : ∀ blanks ∈ opening, '\n' ∉ blanks ∧ allBlank blanks = true
  entries : List Entry
  rest : List Char
  stops : Stops (entries ≠ []) rest
  unopened
    : opening = none → entries = [] →
        ∀ line ∈ (lines rest).head?, trimEnd (withoutBreak line) ≠ "---".toList

namespace Layout

/-- The line that opens a header. -/
def openingLine : Option (List Char) → List Char
  | some blanks => "---".toList ++ blanks ++ ['\n']
  | none => []

def text (layout : Layout) : List Char :=
  openingLine layout.opening ++ layout.entries.flatMap Entry.text ++ layout.rest

/-- The lines of the body: a line that ends the header does not belong to it. -/
def body (layout : Layout) : List (List Char) :=
  match lines layout.rest with
  | line :: others => if isEnd (withoutBreak line) then others else line :: others
  | [] => []

/-- The values of a key. -/
def values (layout : Layout) (key : String) : List String :=
  (layout.entries.filter fun entry => normalKey entry.key = normalKey key).flatMap Entry.values

/-- A text has a layout, of which the last line feed may be left out. -/
def Writes (layout : Layout) (text : String) : Prop :=
  text.toList = layout.text ∨ text.toList ++ ['\n'] = layout.text

end Layout

-----------------------------------------------------------------------------------------
-- What lines are read as
-----------------------------------------------------------------------------------------

section

variable {header : Header} {line bare : List Char} {rest : List (List Char)} {key value : String}

theorem readLines_of_isEnd (current : Option String) (ends : isEnd (withoutBreak line) = true)
    : readLines header current (line :: rest) = (header, rest) := by
  rw [readLines.eq_def]
  simp only [ends, if_true]

theorem readLines_of_keyLine? (current : Option String) (cut : withoutBreak line = bare)
    (within : isEnd bare = false) (found : keyLine? bare = some (key, value))
    : readLines header current (line :: rest)
      = readLines (header.push key value) (some key) rest := by
  rw [readLines.eq_def]
  simp only [cut, within, found, Bool.false_eq_true, if_false]

theorem readLines_of_continuation? (cut : withoutBreak line = bare) (within : isEnd bare = false)
    (other : keyLine? bare = none) (found : continuation? bare = some value)
    : readLines header (some key) (line :: rest)
      = readLines (header.push key value) (some key) rest := by
  rw [readLines.eq_def]
  simp only [cut, within, other, found, Bool.false_eq_true, if_false]

end

section

variable {line : List Char}

/-- A line with a colon does not end a header, and does not open one. -/
theorem isEnd_of_mem (colon : ':' ∈ line) : isEnd line = false ∧ trimEnd line ≠ "---".toList := by
  have kept := mem_trimEnd colon rfl
  have other {rule : List Char} (plain : ':' ∉ rule) : trimEnd line ≠ rule :=
    fun same => plain (same ▸ kept)
  have filled : allBlank line = false :=
    Bool.eq_false_iff.mpr fun blank => not_mem_of_allBlank blank rfl colon
  refine ⟨?_, other (by decide)⟩
  rw [isEnd, filled, beq_eq_false_iff_ne.mpr (other (by decide)),
    beq_eq_false_iff_ne.mpr (other (by decide))]
  rfl

/-- A line that begins with a space ends a header only if it is blank. -/
theorem isEnd_of_head? (begun : line.head? = some ' ') : isEnd line = allBlank line := by
  obtain ⟨blanks, whole, _⟩ := exists_trimEnd_append line
  have other {rule : List Char} (filled : rule ≠ []) (dash : rule.head? ≠ some ' ')
      : (trimEnd line == rule) = false := by
    refine beq_eq_false_iff_ne.mpr fun same => dash ?_
    obtain ⟨c, rest, rfl⟩ := List.exists_cons_of_ne_nil filled
    rw [same] at whole
    rw [whole] at begun
    exact begun
  rw [isEnd, other (by decide) (by decide), other (by decide) (by decide)]
  simp

end

namespace Further

theorem indent_front (content : List Char) : 4 ≤ indent (front ++ content) := by
  rw [indent, front, List.takeWhile_append_of_pos (by simp)]
  simp

theorem continuation?_front (content : List Char)
    : continuation? (front ++ content) = some (String.ofList (trim content)) := by
  rw [continuation?, if_pos (indent_front content), front, List.drop_left' List.length_replicate]

theorem keyLine?_front (content : List Char) : keyLine? (front ++ content) = none := by
  have deep : 3 < indent (front ++ content) := indent_front content
  rw [keyLine?, if_pos deep]

variable (further : Further)

theorem plain : '\n' ∉ front ++ further.content := by
  rw [List.mem_append, not_or]
  exact ⟨by decide, further.line⟩

theorem bare
    : withoutBreak (front ++ further.content ++ ['\n'])
      = front ++ withoutBreak further.content := by
  rw [List.append_assoc, withoutBreak_append_of_ne (by decide) (by decide),
    withoutBreak_append_feed further.line]

theorem isEnd_bare : isEnd (front ++ withoutBreak further.content) = false := by
  rw [isEnd_of_head? rfl, allBlank, List.all_append, ← allBlank, ← allBlank,
    allBlank_withoutBreak, further.shown, Bool.and_false]

end Further

namespace Entry

variable (entry : Entry)

theorem plain : '\n' ∉ entry.front ++ entry.content := by
  have spaces : '\n' ∉ List.replicate entry.indent ' ' := by simp
  have key : '\n' ∉ entry.key.toList := fun member =>
    absurd (entry.word '\n' member) (by decide)
  simp [front, spaces, key, entry.line]

theorem bare
    : withoutBreak (entry.front ++ entry.content ++ ['\n'])
      = entry.front ++ withoutBreak entry.content := by
  have colon : entry.front.getLast? = some ':' := by simp [front]
  rw [List.append_assoc, withoutBreak_append colon rfl, withoutBreak_append_feed entry.line]

theorem colon_mem (content : List Char) : ':' ∈ entry.front ++ content := by simp [front]

theorem keyLine?_front (content : List Char)
    : keyLine? (entry.front ++ content)
      = some (normalKey entry.key, String.ofList (trim content)) := by
  obtain ⟨c, key, begun⟩ := List.exists_cons_of_ne_nil entry.named
  have word := entry.word
  have stops : (entry.key.toList ++ ':' :: content).head? ≠ some ' ' := by
    rw [begun] at word ⊢
    rintro same
    cases same
    exact absurd (word ' ' List.mem_cons_self) (by decide)
  have cut : entry.front ++ content
      = List.replicate entry.indent ' ' ++ (entry.key.toList ++ ':' :: content) := by
    simp [front]
  obtain ⟨spaces, text⟩ := takeWhile_replicate_append entry.indent stops
  have shallow : ¬ 3 < Header.indent (entry.front ++ content) := by
    rw [Header.indent, cut, spaces, List.length_replicate]
    omega
  have filled : entry.key.toList.isEmpty = false := by simp [begun]
  have first : (entry.key.toList ++ ':' :: content).takeWhile isKeyChar = entry.key.toList := by
    rw [List.takeWhile_append_of_pos word]
    simp [isKeyChar]
  have rest : (entry.key.toList ++ ':' :: content).dropWhile isKeyChar = ':' :: content := by
    rw [List.dropWhile_append_of_pos word]
    simp [isKeyChar]
  rw [keyLine?, if_neg shallow, cut, text]
  simp [first, rest, filled]

end Entry

-----------------------------------------------------------------------------------------
-- Layouts are read
-----------------------------------------------------------------------------------------

/-- The lines behind the line of a key carry further values, by induction on them. -/
theorem readLines_further (key : String) (further : List Further) (header : Header)
    (rest : List Char)
    : readLines header (some key) (lines (further.flatMap Further.text ++ rest))
      = readLines
          (header.pushAll (further.map fun one => (key, String.ofList (trim one.content))))
          (some key) (lines rest) := by
  induction further generalizing header with
  | nil => rfl
  | cons one others ih =>
      have cut := lines_append_feed one.plain (others.flatMap Further.text ++ rest)
      rw [List.flatMap_cons, List.append_assoc, Further.text, cut,
        readLines_of_continuation? one.bare one.isEnd_bare (Further.keyLine?_front _)
          (Further.continuation?_front _), trim_withoutBreak]
      exact ih (header.push key (String.ofList (trim one.content)))

theorem readLines_entry (entry : Entry) (header : Header) (current : Option String)
    (rest : List Char)
    : readLines header current (lines (entry.text ++ rest))
      = readLines (header.pushAll entry.fields) (some (normalKey entry.key)) (lines rest) := by
  have cut := lines_append_feed entry.plain (entry.further.flatMap Further.text ++ rest)
  have further := readLines_further (normalKey entry.key) entry.further
    (header.push (normalKey entry.key) (String.ofList (trim entry.content))) rest
  rw [Entry.text, List.append_assoc, cut,
    readLines_of_keyLine? current entry.bare (isEnd_of_mem (entry.colon_mem _)).1
      (entry.keyLine?_front _), trim_withoutBreak, further]
  simp only [Entry.fields, Entry.values, Entry.contents, List.map_cons, List.map_map]
  rfl

/-- Entries are read one after the other, by induction on them. A key is current behind them if it
was before, or if there are any.
-/
theorem readLines_entries (entries : List Entry) (header : Header) (current : Option String)
    (rest : List Char)
    : ∃ last,
        (last ≠ none → current ≠ none ∨ entries ≠ [])
        ∧ readLines header current (lines (entries.flatMap Entry.text ++ rest))
          = readLines (header.pushAll (entries.flatMap Entry.fields)) last (lines rest) := by
  induction entries generalizing header current with
  | nil => exact ⟨current, .inl, rfl⟩
  | cons entry others ih =>
      obtain ⟨last, _, read⟩ := ih (header.pushAll entry.fields) (some (normalKey entry.key))
      refine ⟨last, fun _ => .inr (List.cons_ne_nil entry others), ?_⟩
      rw [List.flatMap_cons, List.append_assoc, readLines_entry, read, List.flatMap_cons,
        pushAll_append]

namespace Layout

variable (layout : Layout)

/-- Behind the last entry nothing more is read. -/
theorem readLines_rest (header : Header) {current : Option String}
    (known : current ≠ none → layout.entries ≠ [])
    : readLines header current (lines layout.rest) = (header, layout.body) := by
  have stops := layout.stops
  rw [body]
  cases cut : lines layout.rest with
  | nil => rfl
  | cons line others =>
      rw [Stops, cut] at stops
      rcases stops line rfl with ends | ⟨noKey, noMore⟩
      · simp only [readLines_of_isEnd current ends, ends, if_true]
      · rw [readLines.eq_def]
        simp only [noKey]
        split
        next => rfl
        next =>
            cases current with
            | none => rfl
            | some key => simp only [noMore (known (Option.some_ne_none key))]

/-- Only the line of dashes that opens a header is skipped. -/
theorem skipOpening_text
    : skipOpening (lines layout.text)
      = lines (layout.entries.flatMap Entry.text ++ layout.rest) := by
  obtain ⟨opening, opened, entries, rest, _, unopened⟩ := layout
  cases opening with
  | some blanks =>
      obtain ⟨plain, blank⟩ := opened blanks rfl
      have free : '\n' ∉ "---".toList ++ blanks := by simp [plain]
      have dashes : trimEnd (withoutBreak ("---".toList ++ blanks ++ ['\n'])) = "---".toList := by
        have behind : allBlank (blanks ++ ['\n']) = true := by
          rw [allBlank, List.all_append, ← allBlank, blank]
          rfl
        rw [trimEnd_withoutBreak, List.append_assoc, trimEnd_append_of_allBlank _ behind]
        rfl
      simp only [text, openingLine]
      rw [List.append_assoc, lines_append_feed free, skipOpening, if_pos dashes]
  | none =>
      simp only [text, openingLine, List.nil_append]
      cases entries with
      | cons entry others =>
          have other : trimEnd (withoutBreak (entry.front ++ entry.content ++ ['\n']))
              ≠ "---".toList := by
            rw [entry.bare]
            exact (isEnd_of_mem (entry.colon_mem _)).2
          rw [List.flatMap_cons, Entry.text, List.append_assoc, List.append_assoc,
            lines_append_feed entry.plain, skipOpening, if_neg other]
      | nil =>
          rw [List.flatMap_nil, List.nil_append]
          cases cut : lines rest with
          | nil => rfl
          | cons line others => rw [skipOpening, if_neg (unopened rfl rfl line (by rw [cut]; rfl))]

/-- A text is split into the values of its layout and the body behind them. -/
theorem split_text
    : split (String.ofList layout.text)
      = (empty.pushAll (layout.entries.flatMap Entry.fields),
          String.ofList layout.body.flatten) := by
  obtain ⟨last, known, read⟩ := readLines_entries layout.entries empty none layout.rest
  have begun : last ≠ none → layout.entries ≠ [] :=
    fun found => (known found).resolve_left (absurd rfl)
  rw [split, String.toList_ofList, skipOpening_text, read, readLines_rest layout _ begun]

end Layout

-----------------------------------------------------------------------------------------
-- Texts without a line feed at the end
-----------------------------------------------------------------------------------------

/-- A line feed behind a text only ends its last line, or adds an empty one, by induction on what is
still unread.
-/
theorem map_withoutBreak_linesFrom_feed {begun : List Char} (plain : '\n' ∉ begun) (s : List Char)
    : (linesFrom begun (s ++ ['\n'])).map withoutBreak = (linesFrom begun s).map withoutBreak
      ∨ (linesFrom begun (s ++ ['\n'])).map withoutBreak
        = (linesFrom begun s).map withoutBreak ++ [[]] := by
  induction s generalizing begun with
  | nil =>
      cases begun with
      | nil => exact .inr rfl
      | cons c begun =>
          have bare := withoutBreak_append_feed (mt List.mem_reverse.mp plain)
          left
          simpa [linesFrom] using bare
  | cons c s ih =>
      simp only [List.cons_append, linesFrom]
      split
      next =>
          refine (ih List.not_mem_nil).imp (fun same => ?_) fun more => ?_
          · rw [List.map_cons, List.map_cons, same]
          · rw [List.map_cons, List.map_cons, more, List.cons_append]
      next other => exact ih (by simp [plain, Ne.symm other])

/-- What is read depends on the lines without their breaks, by induction on the lines. -/
theorem readLines_congr {found others : List (List Char)}
    (same : found.map withoutBreak = others.map withoutBreak) (header : Header)
    (current : Option String)
    : (readLines header current found).1 = (readLines header current others).1 := by
  induction found generalizing others header current with
  | nil =>
      rw [List.map_nil, eq_comm, List.map_eq_nil_iff] at same
      rw [same]
  | cons line rest ih =>
      obtain ⟨other, more, rfl, bare, behind⟩ := List.map_eq_cons_iff.mp same.symm
      rw [readLines.eq_def, readLines.eq_def]
      simp only [bare]
      split
      next => rfl
      next =>
          split
          next key value _ => exact ih behind.symm _ _
          next => split <;> first | exact ih behind.symm _ _ | rfl

/-- An empty line at the end adds nothing, by induction on the lines before it. -/
theorem readLines_append_feed (header : Header) (current : Option String)
    (found : List (List Char))
    : (readLines header current (found ++ [['\n']])).1 = (readLines header current found).1 := by
  induction found generalizing header current with
  | nil => rfl
  | cons line rest ih =>
      rw [List.cons_append, readLines.eq_def, readLines.eq_def]
      simp only
      split
      next => rfl
      next =>
          split
          next key value _ => exact ih _ _
          next => split <;> first | exact ih _ _ | rfl

theorem skipOpening_congr {found others : List (List Char)}
    (same : found.map withoutBreak = others.map withoutBreak)
    : (skipOpening found).map withoutBreak = (skipOpening others).map withoutBreak := by
  cases found with
  | nil =>
      rw [List.map_nil, eq_comm, List.map_eq_nil_iff] at same
      rw [same]
  | cons line rest =>
      obtain ⟨other, more, rfl, bare, behind⟩ := List.map_eq_cons_iff.mp same.symm
      simp only [skipOpening, bare]
      split
      · exact behind.symm
      · rw [List.map_cons, List.map_cons, bare, behind]

theorem skipOpening_append_feed (found : List (List Char))
    : skipOpening (found ++ [['\n']]) = skipOpening found ++ [['\n']] := by
  cases found with
  | nil => rfl
  | cons line rest =>
      simp only [List.cons_append, skipOpening]
      split <;> rfl

/-- A line feed behind a text does not change its header. -/
theorem fst_split_append_feed (s : List Char)
    : (split (String.ofList (s ++ ['\n']))).1 = (split (String.ofList s)).1 := by
  have cut : (readLines empty none (skipOpening (lines (s ++ ['\n'])))).1
      = (readLines empty none (skipOpening (lines s))).1 := by
    rcases map_withoutBreak_linesFrom_feed List.not_mem_nil s with same | more
    · exact readLines_congr (skipOpening_congr same) empty none
    · have same : (lines (s ++ ['\n'])).map withoutBreak
          = (lines s ++ [['\n']]).map withoutBreak := by
        rw [List.map_append]
        exact more
      rw [readLines_congr (skipOpening_congr same), skipOpening_append_feed,
        readLines_append_feed]
  simpa only [split, String.toList_ofList] using cut

namespace Layout

variable {layout : Layout} {text : String}

theorem Writes.header_eq (written : layout.Writes text)
    : (split text).1 = empty.pushAll (layout.entries.flatMap Entry.fields) := by
  have whole : (split (String.ofList layout.text)).1 = (split text).1 := by
    rcases written with same | fed
    · rw [← same, String.ofList_toList]
    · rw [← fed, fst_split_append_feed, String.ofList_toList]
  rw [← whole, split_text]

/-- What is pushed under a key are the values of its entries, since an entry has only one key. -/
theorem filter_fields (entries : List Entry) (key : String)
    : ((entries.flatMap Entry.fields).filter fun field =>
        normalKey field.1 = normalKey key).map (·.2)
      = (entries.filter fun entry => normalKey entry.key = normalKey key).flatMap Entry.values := by
  induction entries with
  | nil => rfl
  | cons entry others ih =>
      rw [List.flatMap_cons, List.filter_append, List.map_append, ih]
      by_cases same : normalKey entry.key = normalKey key
      · simp [Entry.fields, Function.comp_def, List.filter_map, normalKey_normalKey, same]
      · simp [Entry.fields, Function.comp_def, List.filter_map, normalKey_normalKey, same]

theorem values_pushAll_fields (layout : Layout) (key : String)
    : (empty.pushAll (layout.entries.flatMap Entry.fields)).values key = layout.values key := by
  rw [values_pushAll ordered_empty, filter_fields]
  rfl

/-- However a header is laid out, a key has the values of its entries, in order. -/
theorem Writes.values_eq (written : layout.Writes text) (key : String)
    : (split text).1.values key = layout.values key := by
  rw [written.header_eq, values_pushAll_fields]

end Layout

-----------------------------------------------------------------------------------------
-- Every text has a layout
-----------------------------------------------------------------------------------------

/-- A line that is read as one of a key has a word and a colon behind at most three spaces. -/
theorem exists_of_keyLine? {line : List Char} {field : String × String}
    (read : keyLine? line = some field)
    : ∃ (indent : Fin 4) (key : String) (content : List Char),
        line = List.replicate indent ' ' ++ key.toList ++ [':'] ++ content
        ∧ key.toList ≠ []
        ∧ ∀ c ∈ key.toList, isKeyChar c = true := by
  obtain ⟨n, rest, spaces, other⟩ := exists_eq_replicate_append ' ' line
  obtain ⟨indented, behind⟩ := takeWhile_replicate_append n other
  rw [spaces, keyLine?, Header.indent, indented, List.length_replicate, behind] at read
  split at read
  · cases read
  next shallow =>
      simp only at read
      split at read
      next content colon =>
          split at read
          · cases read
          next named =>
              have whole : rest.takeWhile isKeyChar ++ ':' :: content = rest := by
                rw [← colon, List.takeWhile_append_dropWhile]
              refine ⟨⟨n, by omega⟩, String.ofList (rest.takeWhile isKeyChar), content, ?_⟩
              rw [String.toList_ofList]
              refine ⟨?_, by simpa using named, List.all_eq_true.mp List.all_takeWhile⟩
              rw [List.append_assoc _ [':'], List.singleton_append, List.append_assoc, whole,
                spaces]
      next => cases read

/-- A line that is read as one of a key is the first line of an entry. -/
theorem exists_entry {line : List Char} {field : String × String} (plain : '\n' ∉ line)
    (read : keyLine? (withoutBreak line) = some field) (further : List Further)
    : ∃ entry : Entry, line = entry.front ++ entry.content ∧ entry.further = further := by
  obtain ⟨ending, whole, _⟩ := exists_withoutBreak_append line
  obtain ⟨indent, key, content, cut, named, word⟩ := exists_of_keyLine? read
  rw [cut, List.append_assoc] at whole
  have free : '\n' ∉ content ++ ending :=
    fun member => plain (by rw [whole]; exact List.mem_append_right _ member)
  exact ⟨⟨indent, key, named, word, _, free, further⟩, whole, rfl⟩

/-- A line that is read as one with a further value is one. -/
theorem exists_further {line : List Char} {value : String} (plain : '\n' ∉ line)
    (within : isEnd (withoutBreak line) = false)
    (read : continuation? (withoutBreak line) = some value)
    : ∃ further : Further, line = Further.front ++ further.content := by
  obtain ⟨ending, whole, _⟩ := exists_withoutBreak_append line
  obtain ⟨n, rest, spaces, other⟩ := exists_eq_replicate_append ' ' (withoutBreak line)
  rw [continuation?, Header.indent, spaces, (takeWhile_replicate_append n other).1,
    List.length_replicate] at read
  split at read
  next deep =>
      obtain ⟨more, rfl⟩ := Nat.exists_eq_add_of_le deep
      have cut : line = Further.front ++ (List.replicate more ' ' ++ rest ++ ending) := by
        rw [whole, spaces, List.replicate_add, Further.front]
        simp
      have free : '\n' ∉ List.replicate more ' ' ++ rest ++ ending :=
        fun member => plain (by rw [cut]; exact List.mem_append_right _ member)
      refine ⟨⟨_, free, Bool.eq_false_iff.mpr fun blank => ?_⟩, cut⟩
      have filled := (Bool.or_eq_false_iff.mp (Bool.or_eq_false_iff.mp within).1).1
      have all : allBlank line = true := by
        rw [cut, allBlank, List.all_append, ← allBlank, ← allBlank, blank]
        rfl
      rw [allBlank_withoutBreak, all] at filled
      cases filled
  next => cases read

/-- Lines are the further ones of an entry that is begun, then entries, then a text that the header
does not go on with; by induction on the lines.
-/
theorem exists_entries {found : List (List Char)} (plain : ∀ line ∈ found, '\n' ∉ line)
    (begun : Bool)
    : ∃ further entries rest,
        found.flatMap (· ++ ['\n'])
          = further.flatMap Further.text ++ entries.flatMap Entry.text ++ rest
        ∧ (begun = false → further = [])
        ∧ Stops (begun = true ∨ entries ≠ []) rest := by
  induction found generalizing begun with
  | nil => exact ⟨[], [], [], rfl, fun _ => rfl, nofun⟩
  | cons line others ih =>
      obtain ⟨own, others_plain⟩ := List.forall_mem_cons.mp plain
      have cut : lines ((line :: others).flatMap (· ++ ['\n']))
          = (line ++ ['\n']) :: lines (others.flatMap (· ++ ['\n'])) := by
        rw [List.flatMap_cons, lines_append_feed own]
      have stopped {begun : Prop}
          (ends : isEnd (withoutBreak line) = true
            ∨ keyLine? (withoutBreak line) = none
              ∧ (begun → continuation? (withoutBreak line) = none))
          : Stops begun ((line :: others).flatMap (· ++ ['\n'])) := by
        intro first member
        rw [cut] at member
        obtain rfl := Option.some.inj member
        rwa [withoutBreak_append_feed own]
      obtain ⟨further, entries, rest, whole, _, stops⟩ := ih others_plain true
      cases ends : isEnd (withoutBreak line) with
      | true => exact ⟨[], [], _, rfl, fun _ => rfl, stopped (.inl ends)⟩
      | false =>
          cases key : keyLine? (withoutBreak line) with
          | some field =>
              obtain ⟨entry, same, behind⟩ := exists_entry own key further
              refine ⟨[], entry :: entries, rest, ?_, fun _ => rfl, stops.imp fun _ => .inl rfl⟩
              rw [List.flatMap_cons, whole, same]
              simp [Entry.text, behind]
          | none =>
              cases more : continuation? (withoutBreak line) with
              | none => exact ⟨[], [], _, rfl, fun _ => rfl, stopped (.inr ⟨key, fun _ => more⟩)⟩
              | some value =>
                  cases begun with
                  | false => exact ⟨[], [], _, rfl, fun _ => rfl, stopped (.inr ⟨key, by simp⟩)⟩
                  | true =>
                      obtain ⟨one, same⟩ := exists_further own ends more
                      refine ⟨one :: further, entries, rest, ?_, nofun, stops⟩
                      rw [List.flatMap_cons, whole, same]
                      simp [Further.text]

/-- Every text has a layout: what it has before its first line that is not part of the header is a
run of entries, perhaps behind a line of dashes.
-/
theorem exists_layout (text : String) : ∃ layout : Layout, layout.Writes text := by
  obtain ⟨first, others, pieces⟩ :=
    List.exists_cons_of_ne_nil (splitFrom_ne_nil '\n' [] text.toList)
  have plain : ∀ line ∈ first :: others, '\n' ∉ line := fun line member =>
    not_mem_of_mem_splitFrom List.not_mem_nil (pieces ▸ member)
  have whole : text.toList ++ ['\n'] = (first :: others).flatMap (· ++ ['\n']) := by
    have joined : List.intercalate ['\n'] (first :: others) = text.toList :=
      pieces ▸ intercalate_splitFrom [] text.toList
    rw [← intercalate_append_separator (List.cons_ne_nil first others), joined]
  by_cases dashes : trimEnd first = "---".toList
  · obtain ⟨blanks, opening, blank⟩ := exists_trimEnd_append first
    rw [dashes] at opening
    obtain ⟨own, others_plain⟩ := List.forall_mem_cons.mp plain
    have free : '\n' ∉ blanks := fun member => own (opening ▸ List.mem_append_right _ member)
    obtain ⟨further, entries, rest, cut, none, stops⟩ := exists_entries others_plain false
    refine ⟨⟨some blanks, ?_, entries, rest, stops.imp .inr, nofun⟩, .inr ?_⟩
    · rintro _ ⟨⟩
      exact ⟨free, blank⟩
    · rw [whole, List.flatMap_cons, cut, none rfl, opening]
      simp [Layout.text, Layout.openingLine]
  · obtain ⟨further, entries, rest, cut, none, stops⟩ := exists_entries plain false
    rw [none rfl, List.flatMap_nil, List.nil_append] at cut
    have unopened : entries = [] →
        ∀ line ∈ (lines rest).head?, trimEnd (withoutBreak line) ≠ "---".toList := by
      rintro rfl line member
      have broken : allBlank ['\n'] = true := by decide
      rw [List.flatMap_nil, List.nil_append] at cut
      rw [← cut, List.flatMap_cons, lines_append_feed (List.forall_mem_cons.mp plain).1] at member
      obtain rfl := Option.some.inj member
      rwa [trimEnd_withoutBreak, trimEnd_append_of_allBlank _ broken]
    exact ⟨⟨.none, nofun, entries, rest, stops.imp .inr, fun _ => unopened⟩, .inr (whole.trans cut)⟩

end Publication.Header
