import Publication.Proofs.Header.Layouts

/-! Headers that are written and read. A header is read back with all the values that were written
into it, in order, whatever the case of the letters of their keys, and the body behind it is left as
it is.
-/

namespace Publication.Header

open Publication.Text

-----------------------------------------------------------------------------------------
-- Headers as they are written
-----------------------------------------------------------------------------------------

/-- What ends a line: a line feed, perhaps with a carriage return before it. -/
inductive Break where
  | feed
  | returned
deriving DecidableEq

def Break.text : Break → List Char
  | .feed => ['\n']
  | .returned => ['\r', '\n']

/-- A value on one line, with no blank at either end. -/
structure Value where
  text : String
  line : '\n' ∉ text.toList
  trimmed : trim text.toList = text.toList

/-- A further value on a line of its own, behind four spaces and perhaps more. -/
structure Continuation where
  more : Nat
  value : Value
  shown : value.text.toList ≠ []
  ending : Break

def Continuation.line (further : Continuation) : List Char :=
  List.replicate (4 + further.more) ' ' ++ further.value.text.toList

def Continuation.written (further : Continuation) : List Char :=
  further.line ++ further.ending.text

/-- A key with its values, the first one on the line of the key. -/
structure Group where
  indent : Fin 4
  key : String
  named : key.toList ≠ []
  word : ∀ c ∈ key.toList, isKeyChar c = true
  value : Value
  ending : Break
  further : List Continuation

namespace Group

def line (group : Group) : List Char :=
  List.replicate group.indent ' ' ++ (group.key.toList ++ ':' :: ' ' :: group.value.text.toList)

def written (group : Group) : List Char :=
  group.line ++ group.ending.text ++ group.further.flatMap Continuation.written

def values (group : Group) : List String :=
  group.value.text :: group.further.map fun further => further.value.text

end Group

/-- A line that ends a header. -/
inductive Closing where
  | blank (text : List Char) (line : '\n' ∉ text) (blank : allBlank text = true)
  | dashes
  | dots

def Closing.line : Closing → List Char
  | .blank text _ _ => text
  | .dashes => "---".toList
  | .dots => "...".toList

/-- A header as it is written, with the break behind the dashes that open it, if there are any. A
line of dashes that nothing stands before would open a header.
-/
structure Written where
  opening : Option Break
  groups : List Group
  closing : Closing
  ending : Break
  behind : closing = .dashes → opening = none → groups ≠ []

/-- The line of dashes that opens a header. -/
def openingText : Option Break → List Char
  | some ending => "---".toList ++ ending.text
  | none => []

def Written.text (written : Written) : List Char :=
  openingText written.opening ++ written.groups.flatMap Group.written
    ++ (written.closing.line ++ written.ending.text)

-----------------------------------------------------------------------------------------
-- Written headers are laid out
-----------------------------------------------------------------------------------------

/-- The carriage return before a line feed, if there is one. -/
def Break.before : Break → List Char
  | .feed => []
  | .returned => ['\r']

theorem Break.text_eq (ending : Break) : ending.text = ending.before ++ ['\n'] := by
  cases ending <;> rfl

theorem Break.not_mem_before (ending : Break) : '\n' ∉ ending.before := by
  cases ending <;> decide

theorem Break.allBlank_before (ending : Break) : allBlank ending.before = true := by
  cases ending <;> rfl

/-- Nothing is left of the blanks around a value. -/
theorem Value.trim_between (value : Value) {blanks : List Char} (blank : allBlank blanks = true)
    (ending : Break)
    : trim (blanks ++ value.text.toList ++ ending.before) = value.text.toList := by
  rw [List.append_assoc, trim_append blank, trim_append_of_allBlank _ ending.allBlank_before,
    value.trimmed]

namespace Continuation

variable (further : Continuation)

def content : List Char :=
  List.replicate further.more ' ' ++ further.value.text.toList ++ further.ending.before

theorem trim_content : trim further.content = further.value.text.toList :=
  further.value.trim_between (allBlank_replicate _) further.ending

def layout : Further where
  content := further.content
  line := by simp [content, further.value.line, further.ending.not_mem_before]
  shown := by
    refine Bool.eq_false_iff.mpr fun blank => further.shown ?_
    rw [← further.trim_content]
    exact trim_eq_nil_iff.mpr blank

theorem text_layout : further.layout.text = further.written := by
  simp [Further.text, Further.front, layout, content, written, line, Break.text_eq,
    List.replicate_add]

end Continuation

namespace Group

variable (group : Group)

def layout : Entry where
  indent := group.indent
  key := group.key
  named := group.named
  word := group.word
  content := [' '] ++ group.value.text.toList ++ group.ending.before
  line := by simp [group.value.line, group.ending.not_mem_before]
  further := group.further.map Continuation.layout

theorem text_layout : group.layout.text = group.written := by
  have further : (group.further.map Continuation.layout).flatMap Further.text
      = group.further.flatMap Continuation.written := by
    simp only [List.flatMap_map, Continuation.text_layout]
  simp [Entry.text, Entry.front, layout, written, line, Break.text_eq, further]

theorem values_layout : group.layout.values = group.values := by
  have first : trim ([' '] ++ group.value.text.toList ++ group.ending.before)
      = group.value.text.toList :=
    group.value.trim_between rfl group.ending
  simp only [Entry.values, Entry.contents, layout, values, List.map_cons, first,
    String.ofList_toList, List.map_map]
  congr 1
  refine List.map_congr_left fun further _ => ?_
  exact (congrArg String.ofList further.trim_content).trans String.ofList_toList

end Group

namespace Closing

variable (closing : Closing)

theorem plain : '\n' ∉ closing.line := by
  cases closing with
  | blank _ line _ => exact line
  | dashes => decide
  | dots => decide

/-- A line that is to end a header does so, and is one of dashes only if it was written so. -/
theorem bare (ending : Break)
    : isEnd (withoutBreak (closing.line ++ ending.text)) = true
      ∧ (closing ≠ .dashes →
        trimEnd (withoutBreak (closing.line ++ ending.text)) ≠ "---".toList) := by
  have broken : allBlank ending.text = true := by cases ending <;> rfl
  have same : trimEnd (withoutBreak (closing.line ++ ending.text)) = trimEnd closing.line := by
    rw [trimEnd_withoutBreak, trimEnd_append_of_allBlank _ broken]
  rw [isEnd, same]
  cases closing with
  | blank text _ blank =>
      have all : allBlank (withoutBreak (text ++ ending.text)) = true := by
        rw [allBlank_withoutBreak, allBlank, List.all_append, ← allBlank, ← allBlank, blank, broken]
        rfl
      refine ⟨by rw [line, all]; rfl, fun _ dashes => ?_⟩
      obtain ⟨blanks, whole, _⟩ := exists_trimEnd_append text
      rw [line] at dashes
      rw [whole, dashes, allBlank, List.all_append] at blank
      cases blank
  | dashes => exact ⟨by simp [line, trimEnd, isBlank], fun other => absurd rfl other⟩
  | dots => exact ⟨by simp [line, trimEnd, isBlank], fun _ => by decide⟩

end Closing

/-- The first line behind a header that is written is the one that closes it. -/
theorem Closing.lines_eq (closing : Closing) (ending : Break) (body : List Char)
    : lines (closing.line ++ ending.text ++ body)
      = (closing.line ++ ending.text) :: lines body := by
  have free : '\n' ∉ closing.line ++ ending.before := by
    simp [closing.plain, ending.not_mem_before]
  rw [ending.text_eq, ← List.append_assoc, lines_append_feed free]

namespace Written

variable (written : Written)

/-- A header that is written, with a body behind it. -/
def layout (body : List Char) : Layout where
  opening := written.opening.map Break.before
  opened := by
    rintro blanks given
    obtain ⟨ending, _, rfl⟩ := Option.map_eq_some_iff.mp given
    exact ⟨ending.not_mem_before, ending.allBlank_before⟩
  entries := written.groups.map Group.layout
  rest := written.closing.line ++ written.ending.text ++ body
  stops := by
    rw [Stops, Closing.lines_eq]
    intro line first
    obtain rfl := Option.some.inj first
    exact .inl (written.closing.bare written.ending).1
  unopened := by
    rw [Closing.lines_eq]
    intro unopened none line first
    obtain rfl := Option.some.inj first
    refine (written.closing.bare written.ending).2 fun dashes => ?_
    exact written.behind dashes (Option.map_eq_none_iff.mp unopened) (List.map_eq_nil_iff.mp none)

theorem text_layout (body : List Char) : (written.layout body).text = written.text ++ body := by
  have opening : Layout.openingLine (written.opening.map Break.before)
      = openingText written.opening := by
    cases written.opening with
    | none => rfl
    | some ending => simp [Layout.openingLine, openingText, Break.text_eq]
  have groups : (written.groups.map Group.layout).flatMap Entry.text
      = written.groups.flatMap Group.written := by
    simp only [List.flatMap_map, Group.text_layout]
  simp only [Layout.text, layout, opening, groups, text, List.append_assoc]

theorem body_layout (body : List Char) : (written.layout body).body = lines body := by
  have closes := (written.closing.bare written.ending).1
  simp only [Layout.body, layout, Closing.lines_eq, closes, if_true]

theorem values_layout (body : List Char) (key : String)
    : (written.layout body).values key
      = (written.groups.filter fun group =>
          normalKey group.key = normalKey key).flatMap Group.values := by
  simp only [Layout.values, layout, List.filter_map, List.flatMap_map, Group.values_layout]
  rfl

end Written

/-- A header that is written is read back. The body is what was put behind the header, and each key
has the values that stand in its groups, in order, whatever the case of its letters.
-/
theorem split_written (written : Written) (body : String)
    : let text := String.ofList written.text ++ body
      (split text).2 = body
      ∧ ∀ key,
          (split text).1.values key
            = (written.groups.filter fun group =>
                normalKey group.key = normalKey key).flatMap Group.values := by
  intro text
  have same : text = String.ofList (written.layout body.toList).text := by
    rw [Written.text_layout, String.ofList_append, String.ofList_toList]
  rw [same, Layout.split_text]
  refine ⟨?_, fun key => ?_⟩
  · rw [Written.body_layout, flatten_lines, String.ofList_toList]
  · rw [Layout.values_pushAll_fields, Written.values_layout]

/-- A header between dashes and dots, with values that look like a rule and a key. -/
def ruledNote : Written where
  opening := some .feed
  groups := [
    { indent := 1, key := "Tags", named := by decide, word := List.all_eq_true.mp rfl
      value := ⟨"---", by decide, by decide⟩, ending := .returned
      further := [⟨2, ⟨"a: b", by decide, by decide⟩, by decide, .feed⟩] },
    { indent := 0, key := "---", named := by decide, word := List.all_eq_true.mp rfl
      value := ⟨"", by decide, by decide⟩, ending := .feed
      further := [] }]
  closing := .dots
  ending := .feed
  behind := nofun

/-- The header of the note is read back, and so is what is put behind it, which looks like its
end. -/
theorem split_written_ruledNote
    : String.ofList ruledNote.text = "---\n Tags: ---\r\n      a: b\n---: \n...\n"
      ∧ (split (String.ofList ruledNote.text ++ "...")).2 = "..."
      ∧ (split (String.ofList ruledNote.text ++ "...")).1.values "tags" = ["---", "a: b"] := by
  obtain ⟨body, values⟩ := split_written ruledNote "..."
  refine ⟨by decide +kernel, body, ?_⟩
  rw [values]
  decide +kernel

end Publication.Header
