import Publication.Html.Escape
import Publication.Proofs.Naming.Claims

/-! Reading markup for identifiers. A reader goes through markup character by character, in and out
of tags and of the values in them; pieces of markup are read one after another.
-/

namespace Publication.Html

-----------------------------------------------------------------------------------------
-- The reader
-----------------------------------------------------------------------------------------

/-- Where a reader of markup is: in text, in a tag behind part of a word, or behind part of the
value of an attribute.
-/
inductive Place where
  | text
  | tag (word : List Char)
  | value (name read : List Char)
deriving DecidableEq

/-- The place behind a character. Values stand between double quotes. -/
def Place.next : Place → Char → Place
  | .text, c => if c = '<' then .tag [] else .text
  | .tag word, c =>
      if c = '>' then .text
      else if c = '"' then .value word []
      else if c = '/' ∨ Text.isAsciiBlank c = true then .tag []
      else .tag (word ++ [c])
  | .value name read, c => if c = '"' then .tag [] else .value name (read ++ [c])

/-- The identifier that a character completes, if it ends the value of one. -/
def Place.completed : Place → Char → List String
  | .value name read, c => if c = '"' ∧ name = "id=".toList then [String.ofList read] else []
  | _, _ => []

def Place.identifiers : Place → List Char → List String
  | _, [] => []
  | place, c :: rest => place.completed c ++ (place.next c).identifiers rest

/-- The values of the attributes `id` in markup, as they are written. -/
def identifiers (html : String) : List String := Place.text.identifiers html.toList

-----------------------------------------------------------------------------------------
-- Pieces of markup
-----------------------------------------------------------------------------------------

/-- A piece of markup leads a reader from one place to another, past these identifiers. -/
structure Leads (place : Place) (s : String) (found : List String) (last : Place) : Prop where
  last : s.toList.foldl Place.next place = last
  found : place.identifiers s.toList = found

section

variable {place middle last : Place} {s t : String} {found later : List String}

theorem identifiers_append (place : Place) (s t : List Char)
    : place.identifiers (s ++ t)
      = place.identifiers s ++ (s.foldl Place.next place).identifiers t := by
  induction s generalizing place with
  | nil => rfl
  | cons c s ih =>
      simp only [List.cons_append, Place.identifiers, ih, List.foldl_cons, List.append_assoc]

theorem Leads.append (first : Leads place s found middle) (second : Leads middle t later last)
    : Leads place (s ++ t) (found ++ later) last where
  last := by rw [String.toList_append, List.foldl_append, first.last, second.last]
  found := by
    rw [String.toList_append, identifiers_append, first.found, first.last, second.found]

/-- What finds nothing may stand before anything. -/
theorem Leads.before (first : Leads place s [] middle) (second : Leads middle t later last)
    : Leads place (s ++ t) later last :=
  first.append second

/-- What finds nothing may stand behind anything. -/
theorem Leads.behind (first : Leads place s found middle) (second : Leads middle t [] last)
    : Leads place (s ++ t) found last :=
  List.append_nil found ▸ first.append second

end

/-- Where no character ends what is being read, the reader goes on with it, by induction on the
characters.
-/
theorem leads_on (going : List Char → Place) {s : String}
    (steps
      : ∀ c ∈ s.toList, ∀ read,
          (going read).next c = going (read ++ [c]) ∧ (going read).completed c = [])
    (read : List Char)
    : Leads (going read) s [] (going (read ++ s.toList)) := by
  suffices both : s.toList.foldl Place.next (going read) = going (read ++ s.toList)
      ∧ (going read).identifiers s.toList = [] from ⟨both.1, both.2⟩
  generalize s.toList = chars at steps ⊢
  induction chars generalizing read with
  | nil => exact ⟨by rw [List.append_nil]; rfl, rfl⟩
  | cons c rest ih =>
      obtain ⟨first, others⟩ := List.forall_mem_cons.mp steps
      obtain ⟨next, quiet⟩ := first read
      obtain ⟨goes, finds⟩ := ih (read ++ [c]) others
      rw [List.foldl_cons, Place.identifiers, next, quiet, goes, List.append_assoc, finds]
      exact ⟨rfl, rfl⟩

/-- Text goes on up to an angle bracket. -/
theorem leads_text {s : String} (free : '<' ∉ s.toList) : Leads .text s [] .text := by
  refine leads_on (fun _ => .text) (fun c member _ => ⟨if_neg ?_, rfl⟩) []
  rintro rfl
  exact free member

/-- A value goes on up to a quote. -/
theorem leads_value (name read : List Char) {s : String} (free : '"' ∉ s.toList)
    : Leads (.value name read) s [] (.value name (read ++ s.toList)) := by
  refine leads_on (Place.value name) (fun c member read => ?_) read
  have other : c ≠ '"' := by
    rintro rfl
    exact free member
  exact ⟨if_neg other, if_neg fun ends => other ends.1⟩

/-- A number goes on with a word. -/
theorem leads_number (word : List Char) (n : Nat)
    : Leads (.tag word) (toString n) [] (.tag (word ++ (toString n).toList)) := by
  refine leads_on Place.tag (fun c member read => ⟨?_, rfl⟩) word
  have digit : c.isDigit = true := Naming.isDigit_of_mem_toString member
  have other {d : Char} (mark : d.isDigit = false) : c ≠ d := by
    rintro rfl
    rw [digit] at mark
    cases mark
  have shown : Text.isAsciiBlank c = false := by
    have least : 48 ≤ c.toNat := (Char.isDigit_iff_toNat.mp digit).1
    simp only [Text.isAsciiBlank, Bool.or_eq_false_iff, Bool.and_eq_false_iff,
      decide_eq_false_iff_not, beq_eq_false_iff_ne]
    omega
  rw [Place.next, if_neg (other rfl), if_neg (other rfl), if_neg]
  rintro (rfl | blank)
  · cases digit
  · rw [shown] at blank
    cases blank

/-- A value is read as a whole between what opens and what closes it. -/
theorem leads_valued {place last : Place} {opening value closing : String} {name read : List Char}
    {found : List String} (opens : Leads place opening [] (.value name read))
    (free : '"' ∉ value.toList)
    (closes : Leads (.value name (read ++ value.toList)) closing found last)
    : Leads place (opening ++ value ++ closing) found last :=
  (opens.before (leads_value name read free)).before closes

/-- An identifier ends with the quote behind it. -/
theorem leads_identified {last : Place} {rest : String} (value : String)
    (leads : Leads (.tag []) rest [] last)
    : Leads (.value "id=".toList ([] ++ value.toList)) ("\"" ++ rest) [value] last := by
  have quote : Leads (.value "id=".toList ([] ++ value.toList)) "\"" [value] (.tag []) := by
    refine ⟨rfl, ?_⟩
    have ends : (Place.value "id=".toList value.toList).identifiers ['"']
        = [String.ofList value.toList] :=
      rfl
    rw [String.ofList_toList] at ends
    exact ends
  exact quote.behind leads

-----------------------------------------------------------------------------------------
-- Escaped values
-----------------------------------------------------------------------------------------

theorem toList_join_map (shown : Char → String) (text : List Char)
    : (String.join (text.map shown)).toList = text.flatMap fun c => (shown c).toList := by
  induction text with
  | nil => rfl
  | cons c rest ih =>
      rw [List.map_cons, String.join_cons, String.toList_append, ih, List.flatMap_cons]

/-- The characters that are escaped in values, with their escapes behind an ampersand. -/
def escapes : List (Char × Char × String) :=
  [('"', 'q', "uot;"), ('\x27', '#', "39;"), ('&', 'a', "mp;"), ('<', 'l', "t;"),
    ('>', 'g', "t;")]

theorem attributeChar_of_mem
    : ∀ entry ∈ escapes, (attributeChar entry.1).toList = '&' :: entry.2.1 :: entry.2.2.toList := by
  decide

/-- An escape can be told from its first letter. -/
theorem eq_of_sign
    : ∀ entry ∈ escapes, ∀ other ∈ escapes, entry.2.1 = other.2.1 → entry = other := by
  decide

theorem attributeChar_of_not_mem {c : Char} (plain : ∀ entry ∈ escapes, c ≠ entry.1)
    : (attributeChar c).toList = [c] := by
  have own : c ≠ '"' ∧ c ≠ '\x27' ∧ c ≠ '&' ∧ c ≠ '<' ∧ c ≠ '>' := by
    simpa [escapes] using plain
  obtain ⟨quote, single, ampersand, less, greater⟩ := own
  simp only [attributeChar]
  split
  next same => exact absurd (Char.toNat_inj.mp same) quote
  next same => exact absurd (Char.toNat_inj.mp same) single
  next =>
      unfold contentChar
      split
      · exact absurd rfl ampersand
      · exact absurd rfl less
      · exact absurd rfl greater
      · simp

/-- A character of a value stands for itself or is escaped. -/
theorem attributeChar_cases (c : Char)
    : ((attributeChar c).toList = [c] ∧ ∀ entry ∈ escapes, c ≠ entry.1)
      ∨ ∃ entry ∈ escapes,
          c = entry.1 ∧ (attributeChar c).toList = '&' :: entry.2.1 :: entry.2.2.toList := by
  by_cases escaped : ∃ entry ∈ escapes, c = entry.1
  · obtain ⟨entry, member, rfl⟩ := escaped
    exact .inr ⟨entry, member, rfl, attributeChar_of_mem entry member⟩
  · have plain : ∀ entry ∈ escapes, c ≠ entry.1 :=
      fun entry member same => escaped ⟨entry, member, same⟩
    exact .inl ⟨attributeChar_of_not_mem plain, plain⟩

/-- A character can be told from what stands for it. -/
theorem attributeChar_append_inj {c d : Char} {s t : List Char}
    (same : (attributeChar c).toList ++ s = (attributeChar d).toList ++ t)
    : c = d ∧ s = t := by
  have ampersand {e : Char} (plain : ∀ entry ∈ escapes, e ≠ entry.1) : e ≠ '&' :=
    plain ('&', 'a', "mp;") (by decide)
  rcases attributeChar_cases c with ⟨left, plain⟩ | ⟨entry, member, rfl, left⟩
  · rcases attributeChar_cases d with ⟨right, _⟩ | ⟨_, _, _, right⟩
    · rw [left, right] at same
      exact List.cons.inj same
    · rw [left, right] at same
      exact absurd (List.cons.inj same).1 (ampersand plain)
  · rcases attributeChar_cases d with ⟨right, plain⟩ | ⟨other, among, rfl, right⟩
    · rw [left, right] at same
      exact absurd (List.cons.inj same).1.symm (ampersand plain)
    · rw [left, right] at same
      obtain ⟨sign, behind⟩ := List.cons.inj (List.cons.inj same).2
      obtain rfl := eq_of_sign entry member other among sign
      exact ⟨rfl, List.append_cancel_left behind⟩

theorem attributeChar_ne_nil (c : Char) : (attributeChar c).toList ≠ [] := by
  rcases attributeChar_cases c with ⟨same, _⟩ | ⟨_, _, _, same⟩ <;> simp [same]

/-- Different texts are escaped differently. -/
theorem attributeValue_inj {text other : String}
    (same : attributeValue text = attributeValue other)
    : text = other := by
  have chars := congrArg String.toList same
  rw [attributeValue, attributeValue, toList_join_map, toList_join_map] at chars
  refine String.toList_inj.mp ?_
  generalize text.toList = a at chars ⊢
  generalize other.toList = b at chars ⊢
  induction a generalizing b with
  | nil =>
      cases b with
      | nil => rfl
      | cons d b => exact absurd (List.append_eq_nil_iff.mp chars.symm).1 (attributeChar_ne_nil d)
  | cons c a ih =>
      cases b with
      | nil => exact absurd (List.append_eq_nil_iff.mp chars).1 (attributeChar_ne_nil c)
      | cons d b =>
          obtain ⟨rfl, behind⟩ := attributeChar_append_inj chars
          rw [ih b behind]

/-- Neither quotes nor angle brackets are in a value. -/
theorem not_mem_attributeValue {mark : Char} (escaped : mark = '"' ∨ mark = '<') (text : String)
    : mark ∉ (attributeValue text).toList := by
  intro member
  rw [attributeValue, toList_join_map] at member
  obtain ⟨c, _, inside⟩ := List.mem_flatMap.mp member
  rcases attributeChar_cases c with ⟨same, plain⟩ | ⟨entry, among, rfl, same⟩
  · obtain rfl : mark = c := List.mem_singleton.mp (same ▸ inside)
    rcases escaped with rfl | rfl
    · exact plain _ List.mem_cons_self rfl
    · exact plain ('<', 'l', "t;") (by decide) rfl
  · have free : ∀ entry ∈ escapes,
        '"' ∉ '&' :: entry.2.1 :: entry.2.2.toList
        ∧ '<' ∉ '&' :: entry.2.1 :: entry.2.2.toList := by
      decide
    rw [same] at inside
    rcases escaped with rfl | rfl
    · exact (free entry among).1 inside
    · exact (free entry among).2 inside

/-- No angle brackets open in content. -/
theorem not_mem_content (text : String) : '<' ∉ (content text).toList := by
  intro member
  rw [content, toList_join_map] at member
  obtain ⟨c, _, inside⟩ := List.mem_flatMap.mp member
  unfold contentChar at inside
  split at inside
  · exact absurd inside (by decide)
  · exact absurd inside (by decide)
  · exact absurd inside (by decide)
  next other _ =>
      obtain rfl : '<' = c := by simpa using inside
      exact other rfl

/-- No quotes are in a reference. -/
theorem not_mem_reference (target : String) : '"' ∉ (reference target).toList := by
  intro member
  rw [reference, String.toList_ofList] at member
  obtain ⟨b, _, inside⟩ := List.mem_flatMap.mp member
  have digit (n : Nat) : '"' ≠ (Text.hexDigit n).toUpper := by
    have free : '"' ∉ "0123456789abcdef".toList.map Char.toUpper := by decide
    rw [Text.hexDigit, List.getD_eq_getElem?_getD]
    cases found : "0123456789abcdef".toList[n]? with
    | none => decide
    | some c =>
        intro same
        exact free (List.mem_map.mpr ⟨c, List.mem_of_getElem? found, same.symm⟩)
  unfold referenceOctet at inside
  split at inside
  next plain =>
      rw [isPlainOctet, ← List.mem_singleton.mp inside] at plain
      exact absurd plain (by decide)
  · split at inside
    · exact absurd inside (by decide)
    · split at inside
      · exact absurd inside (by decide)
      · simp [digit] at inside

end Publication.Html
