import Mathlib.Data.List.Basic
import Publication.Latex.Reference

/-! Backslash escapes. Escaped text is read back as it was, and nothing in it is taken for a mark of
its own; so the brackets around it in a reference are told from those in it, and the reference tells
what it was made of.
-/

namespace Publication.Latex

open Publication.Text

-----------------------------------------------------------------------------------------
-- Reading escapes
-----------------------------------------------------------------------------------------

/-- What a reader of backslash escapes takes a character for. -/
inductive Reading where
  /-- A backslash that escapes the character behind it. -/
  | escaping
  /-- A character behind a backslash that escapes it. -/
  | escaped
  /-- A character that stands alone. -/
  | alone
deriving DecidableEq

/-- Reads a text from left to right, where a backslash escapes an ASCII punctuation character that
is next. Each character is given with what it is taken for.
-/
def readEscapes : List Char → List (Char × Reading)
  | [] => []
  | [c] => [(c, .alone)]
  | c :: d :: rest =>
      if c = '\\' && isAsciiPunctuation d then
        (c, .escaping) :: (d, .escaped) :: readEscapes rest
      else (c, .alone) :: readEscapes (d :: rest)

/-- The text that is meant: an escaped character is meant without its backslash. -/
def meant (s : List Char) : List Char :=
  ((readEscapes s).filter (·.2 ≠ .escaping)).map (·.1)

/-- Each character is read once and in its place. -/
theorem map_fst_readEscapes (s : List Char) : (readEscapes s).map (·.1) = s := by
  fun_induction readEscapes s with
  | case1 => rfl
  | case2 c => rfl
  | case3 c d rest escapes ih => simp [ih]
  | case4 c d rest stands ih => simpa using ih

theorem readEscapes_mark {c : Char} (sign : isAsciiPunctuation c = true) (rest : List Char)
    : readEscapes ('\\' :: c :: rest) = ('\\', .escaping) :: (c, .escaped) :: readEscapes rest := by
  rw [readEscapes, if_pos (by rw [sign]; rfl)]

/-- A character that is no punctuation escapes nothing. -/
theorem readEscapes_letter {c : Char} (letter : isAsciiPunctuation c = false) (rest : List Char)
    : readEscapes (c :: rest) = (c, .alone) :: readEscapes rest := by
  have other : c ≠ '\\' := by
    rintro rfl
    cases letter
  cases rest with
  | nil => rfl
  | cons d rest => simp [readEscapes, other]

/-- How escaped text is read: a punctuation character is escaped, and all others stand alone. What
follows is read for itself.
-/
theorem readEscapes_escapeChars_append (s t : List Char)
    : readEscapes (escapeChars s ++ t)
      = (s.flatMap fun c =>
            if isAsciiPunctuation c then [('\\', .escaping), (c, .escaped)] else [(c, .alone)])
          ++ readEscapes t := by
  induction s with
  | nil => rfl
  | cons c s ih =>
      rw [escapeChars, List.flatMap_cons, List.append_assoc, ← ih]
      split
      next sign => exact readEscapes_mark sign _
      next letter => exact readEscapes_letter (Bool.eq_false_iff.mpr letter) _

theorem readEscapes_escapeChars (s : List Char)
    : readEscapes (escapeChars s)
      = s.flatMap fun c =>
          if isAsciiPunctuation c then [('\\', .escaping), (c, .escaped)] else [(c, .alone)] := by
  have whole := readEscapes_escapeChars_append s []
  rwa [List.append_nil, readEscapes, List.append_nil] at whole

theorem meant_escapeChars (s : List Char) : meant (escapeChars s) = s := by
  rw [meant, readEscapes_escapeChars]
  induction s with
  | nil => rfl
  | cons c s ih =>
      rw [List.flatMap_cons, List.filter_append, List.map_append, ih]
      split <;> rfl

/-- No punctuation character of escaped text stands alone. -/
theorem reading_of_punctuation {s : List Char} {read : Char × Reading}
    (member : read ∈ readEscapes (escapeChars s)) (sign : isAsciiPunctuation read.1 = true)
    : read = ('\\', .escaping) ∨ read.2 = .escaped := by
  rw [readEscapes_escapeChars] at member
  obtain ⟨c, _, among⟩ := List.mem_flatMap.mp member
  split at among
  · rcases List.mem_cons.mp among with rfl | last
    · exact .inl rfl
    · cases List.mem_singleton.mp last
      exact .inr rfl
  next letter =>
      cases List.mem_singleton.mp among
      exact absurd sign letter

theorem escapeChars_injective : Function.Injective escapeChars := by
  intro s t same
  rw [← meant_escapeChars s, same, meant_escapeChars]

theorem escapeMarkdown_injective : Function.Injective escapeMarkdown := by
  intro text other same
  exact String.toList_injective (escapeChars_injective (String.ofList_injective same))

-----------------------------------------------------------------------------------------
-- References
-----------------------------------------------------------------------------------------

/-- What stands before the first occurrence of something, and what stands behind it. -/
theorem eq_of_append_cons {α : Type} [DecidableEq α] {a : α} {front back behind after : List α}
    (first : a ∉ front) (last : a ∉ back) (same : front ++ a :: behind = back ++ a :: after)
    : front = back ∧ behind = after := by
  have place := congrArg (List.idxOf a) same
  rw [List.idxOf_append_of_notMem first, List.idxOf_append_of_notMem last, List.idxOf_cons_self,
    List.idxOf_cons_self, Nat.add_zero, Nat.add_zero] at place
  obtain ⟨whole, rest⟩ := List.append_inj same place
  exact ⟨whole, (List.cons.inj rest).2⟩

/-- Escaped text ends at the first bracket that stands alone. -/
theorem escapeChars_bracket_inj {s t behind after : List Char}
    (same : escapeChars s ++ ']' :: behind = escapeChars t ++ ']' :: after)
    : s = t ∧ behind = after := by
  have apart (text : List Char) : (']', .alone) ∉ readEscapes (escapeChars text) := by
    intro member
    rcases reading_of_punctuation member rfl with ⟨⟨⟩⟩ | ⟨⟨⟩⟩
  have bracket (rest : List Char)
      : readEscapes (']' :: rest) = (']', .alone) :: readEscapes rest := by
    cases rest <;> rfl
  have read := congrArg readEscapes same
  rw [readEscapes_escapeChars_append, readEscapes_escapeChars_append, ← readEscapes_escapeChars,
    ← readEscapes_escapeChars, bracket, bracket] at read
  obtain ⟨text, rest⟩ := eq_of_append_cons (apart s) (apart t) read
  refine ⟨?_, ?_⟩
  · rw [← meant_escapeChars s, meant, text, ← meant, meant_escapeChars]
  · rw [← map_fst_readEscapes behind, rest, map_fst_readEscapes]

/-- A reference, cut at the bracket behind the text and at the one behind the path of the image. -/
theorem toList_imageReference (alt png : String) (pdf : Option String)
    : (imageReference alt png pdf).toList
      = match pdf with
        | none =>
            "![".toList ++ (escapeChars alt.toList
              ++ ']' :: ("(<file://".toList ++ (png.toList ++ '>' :: ")\n".toList)))
        | some pdf =>
            "[![".toList ++ (escapeChars alt.toList
              ++ ']' :: ("(<file://".toList ++ (png.toList
                ++ '>' :: (")](<file://".toList ++ (pdf.toList ++ ">)\n".toList))))) := by
  cases pdf with
  | none => simp [imageReference, escapeMarkdown]
  | some pdf => simp [imageReference, escapeMarkdown]

/-- A reference tells its text, and a path without a closing angle bracket. -/
theorem imageReference_inj {alt other png image : String} {pdf document : Option String}
    (plain : '>' ∉ png.toList) (unmarked : '>' ∉ image.toList)
    (same : imageReference alt png pdf = imageReference other image document)
    : alt = other ∧ png = image ∧ pdf = document := by
  have read := congrArg String.toList same
  rw [toList_imageReference, toList_imageReference] at read
  cases pdf with
  | none =>
      cases document with
      | some document => cases read
      | none =>
          obtain ⟨text, rest⟩ := escapeChars_bracket_inj (List.append_cancel_left read)
          obtain ⟨path, _⟩ := eq_of_append_cons plain unmarked (List.append_cancel_left rest)
          exact ⟨String.toList_injective text, String.toList_injective path, rfl⟩
  | some pdf =>
      cases document with
      | none => cases read
      | some document =>
          obtain ⟨text, rest⟩ := escapeChars_bracket_inj (List.append_cancel_left read)
          obtain ⟨path, outer⟩ := eq_of_append_cons plain unmarked (List.append_cancel_left rest)
          have last := List.append_cancel_right (List.append_cancel_left outer)
          exact ⟨String.toList_injective text, String.toList_injective path,
            congrArg some (String.toList_injective last)⟩

-----------------------------------------------------------------------------------------
-- Faithful quoting
-----------------------------------------------------------------------------------------

/-- Escaping is a faithful quoting. A reader of backslash escapes, who reads each character once and
in its place, reads the text that was escaped, and takes each punctuation character for a backslash
that escapes the next one or for one that is escaped. So different texts are escaped differently,
and a reference tells its text and its paths, if no path of an image holds a closing angle bracket.
-/
theorem escapeMarkdown_faithful
    : (∀ s : List Char, (readEscapes s).map (·.1) = s)
      ∧ (∀ text : String, meant (escapeMarkdown text).toList = text.toList)
      ∧ (∀ (text : String), ∀ read ∈ readEscapes (escapeMarkdown text).toList,
          isAsciiPunctuation read.1 = true → read = ('\\', .escaping) ∨ read.2 = .escaped)
      ∧ Function.Injective escapeMarkdown
      ∧ ∀ (alt png : String) (pdf : Option String) (other image : String)
          (document : Option String),
          '>' ∉ png.toList → '>' ∉ image.toList →
            (imageReference alt png pdf = imageReference other image document
              ↔ alt = other ∧ png = image ∧ pdf = document) := by
  refine ⟨map_fst_readEscapes, fun text => ?_, fun text read member sign => ?_,
    escapeMarkdown_injective, fun alt png pdf other image document plain unmarked =>
      ⟨imageReference_inj plain unmarked, ?_⟩⟩
  · rw [escapeMarkdown, String.toList_ofList, meant_escapeChars]
  · rw [escapeMarkdown, String.toList_ofList] at member
    exact reading_of_punctuation member sign
  · rintro ⟨rfl, rfl, rfl⟩
    rfl

/-- A text with a bracket and backslashes at its end, and paths with brackets of another kind. -/
theorem escapeMarkdown_faithful_backslashes
    : meant (escapeMarkdown "a]\\\\").toList = "a]\\\\".toList
      ∧ (']', Reading.escaped) ∈ readEscapes (escapeMarkdown "a]\\\\").toList
      ∧ (']', Reading.alone) ∉ readEscapes (escapeMarkdown "a]\\\\").toList
      ∧ '>' ∉ "img/a(1).png".toList
      ∧ imageReference "a]\\\\" "img/a(1).png" (some "a.pdf")
        ≠ imageReference "a\\]\\" "img/a(1).png" (some "a.pdf") := by
  obtain ⟨_, reads, marks, _, tells⟩ := escapeMarkdown_faithful
  have plain : '>' ∉ "img/a(1).png".toList := by decide +kernel
  refine ⟨reads _, by decide +kernel, fun member => ?_, plain, fun same => ?_⟩
  · rcases marks _ _ member rfl with ⟨⟨⟩⟩ | ⟨⟨⟩⟩
  · exact absurd ((tells _ _ _ _ _ _ plain plain).mp same).1 (by decide +kernel)

end Publication.Latex
