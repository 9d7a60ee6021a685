import Mathlib.Data.List.Forall2
import Publication.Proofs.Header.Layouts
import Publication.Proofs.Text.Pieces

/-! Lists in headers. The tags of a list stand on any number of lines of its key, on further lines
behind them, and several on one line with commas between them. However they are laid out, the same
list is read.
-/

namespace Publication.Header

open Publication.Text

-----------------------------------------------------------------------------------------
-- Lists on a line
-----------------------------------------------------------------------------------------

/-- A tag is not empty, and has no blank at either end and no comma in it. Where it stands on a
line, it has no line feed either.
-/
structure IsTag (tag : String) : Prop where
  shown : tag ≠ ""
  trimmed : trim tag.toList = tag.toList
  plain : ',' ∉ tag.toList

/-- A text lists tags with commas between them. Any blanks may stand around each of them, and
between two commas there may be nothing else.
-/
inductive Lists : List Char → List String → Prop
  | blank {blanks} (blank : allBlank blanks = true) : Lists blanks []
  | tag {front tag behind} (isTag : IsTag tag) (before : allBlank front = true)
    (after : allBlank behind = true)
    : Lists (front ++ tag.toList ++ behind) [tag]
  | comma {s t first rest} (left : Lists s first) (right : Lists t rest)
    : Lists (s ++ ',' :: t) (first ++ rest)

theorem IsTag.items_eq {tag : String} (isTag : IsTag tag) : items tag.toList = [tag.toList] := by
  have filled : allBlank tag.toList = false := by
    refine Bool.eq_false_iff.mpr fun blank => isTag.shown ?_
    have nothing := trim_eq_nil_iff.mpr blank
    rw [isTag.trimmed] at nothing
    exact String.toList_eq_nil_iff.mp nothing
  rw [items_of_not_mem isTag.plain, filled, isTag.trimmed]
  rfl

/-- What a text lists are its items. -/
theorem Lists.items_eq {s : List Char} {tags : List String} (listed : Lists s tags)
    : (items s).map String.ofList = tags := by
  induction listed with
  | blank blank => rw [items_of_allBlank blank, List.map_nil]
  | tag isTag before after =>
      rw [items_blanks before after, isTag.items_eq, List.map_singleton, String.ofList_toList]
  | comma _ _ left right => rw [items_append_comma, List.map_append, left, right]

theorem isTag_trim {s : List Char} (plain : ',' ∉ s) (filled : allBlank s = false)
    : IsTag (String.ofList (trim s)) where
  shown := by
    intro nothing
    have blank := trim_eq_nil_iff.mp (String.ofList_eq_empty_iff.mp nothing)
    rw [filled] at blank
    cases blank
  trimmed := by rw [String.toList_ofList, (trimmed_trim s).trim_eq]
  plain := by
    obtain ⟨front, behind, whole, _, _⟩ := exists_eq_trim s
    rw [String.toList_ofList]
    intro member
    rw [whole] at plain
    simp [member] at plain

/-- Every text lists something, by induction on its commas. -/
theorem lists_items (s : List Char) : Lists s ((items s).map String.ofList) := by
  have alone (s : List Char) (plain : ',' ∉ s) : Lists s ((items s).map String.ofList) := by
    rw [items_of_not_mem plain]
    cases filled : allBlank s with
    | true => exact .blank filled
    | false =>
        obtain ⟨front, behind, whole, before, after⟩ := exists_eq_trim s
        have listed : Lists (front ++ (String.ofList (trim s)).toList ++ behind) _ :=
          .tag (isTag_trim plain filled) before after
        rw [String.toList_ofList, ← whole] at listed
        exact listed
  induction s using comma_induction with
  | plain s plain => exact alone s plain
  | comma s t plain ih =>
      rw [items_append_comma, List.map_append]
      exact .comma (alone s plain) ih

-----------------------------------------------------------------------------------------
-- Lists in a header
-----------------------------------------------------------------------------------------

theorem list_eq (header : Header) (key : String)
    : header.list key
      = (header.values key).flatMap fun value => (items value.toList).map String.ofList := by
  rw [list, List.map_flatMap, List.filter_flatMap, List.map_flatMap]
  rfl

/-- Two values of a key list the same as one value with a comma between them. -/
theorem list_eq_of_values {one two : Header} {key first second : String}
    {before behind : List String}
    (apart : one.values key = before ++ first :: second :: behind)
    (joined : two.values key = before ++ (first ++ "," ++ second) :: behind)
    : one.list key = two.list key := by
  have cut : (first ++ "," ++ second).toList = first.toList ++ ',' :: second.toList := by simp
  rw [list_eq, list_eq, apart, joined]
  simp only [List.flatMap_append, List.flatMap_cons, cut, items_append_comma, List.map_append,
    List.append_assoc]

/-- Entries lay out a list of tags: each entry of the key lists some of them, on its own line and on
the further ones, and entries of other keys may stand anywhere.
-/
inductive LaysOut (key : String) : List Entry → List String → Prop
  | nil : LaysOut key [] []
  | other {entry entries tags} (apart : normalKey entry.key ≠ normalKey key)
    (rest : LaysOut key entries tags)
    : LaysOut key (entry :: entries) tags
  | own {entry entries found tags} (same : normalKey entry.key = normalKey key)
    (listed : List.Forall₂ Lists entry.contents found) (rest : LaysOut key entries tags)
    : LaysOut key (entry :: entries) (found.flatten ++ tags)

/-- The tags of an entry are the items of its values. -/
theorem Entry.flatMap_items (entry : Entry)
    : (entry.values.flatMap fun value => (items value.toList).map String.ofList)
      = entry.contents.flatMap fun content => (items content).map String.ofList := by
  simp only [Entry.values, List.flatMap_map, String.toList_ofList, items_trim]

theorem flatten_eq_of_forall₂ {contents : List (List Char)} {found : List (List String)}
    (listed : List.Forall₂ Lists contents found)
    : (contents.flatMap fun content => (items content).map String.ofList) = found.flatten := by
  induction listed with
  | nil => rfl
  | cons first _ rest => rw [List.flatMap_cons, List.flatten_cons, first.items_eq, rest]

/-- What entries lay out is what is read of them, by induction on the entries. -/
theorem LaysOut.flatMap_eq {key : String} {entries : List Entry} {tags : List String}
    (laid : LaysOut key entries tags)
    : (((entries.filter fun entry => normalKey entry.key = normalKey key).flatMap
        Entry.values).flatMap fun value => (items value.toList).map String.ofList) = tags := by
  induction laid with
  | nil => rfl
  | other apart _ ih => rw [List.filter_cons_of_neg (by simp [apart]), ih]
  | own same listed _ ih =>
      rw [List.filter_cons_of_pos (by simp [same]), List.flatMap_cons, List.flatMap_append, ih,
        Entry.flatMap_items, flatten_eq_of_forall₂ listed]

/-- Entries lay out some list, by induction on them. -/
theorem exists_laysOut (key : String) (entries : List Entry)
    : ∃ tags, LaysOut key entries tags := by
  induction entries with
  | nil => exact ⟨[], .nil⟩
  | cons entry rest ih =>
      obtain ⟨tags, laid⟩ := ih
      by_cases same : normalKey entry.key = normalKey key
      · have listed : List.Forall₂ Lists entry.contents
            (entry.contents.map fun content => (items content).map String.ofList) := by
          rw [List.forall₂_map_right_iff, List.forall₂_same]
          exact fun content _ => lists_items content
        exact ⟨_, .own same listed laid⟩
      · exact ⟨tags, .other same laid⟩

/-- However a list of tags is laid out in a text, it is read back, and no list is read that is not
laid out in it. And two values of a key list the same as one value with a comma between them.
-/
theorem list_eq_iff_laysOut (text key : String) (tags : List String)
    : ((split text).1.list key = tags
        ↔ ∃ layout : Layout, layout.Writes text ∧ LaysOut key layout.entries tags)
      ∧ ∀ (one two : Header) (first second : String) (before behind : List String),
          one.values key = before ++ first :: second :: behind →
          two.values key = before ++ (first ++ "," ++ second) :: behind →
            one.list key = two.list key := by
  have read {layout : Layout} {tags : List String} (written : layout.Writes text)
      (laid : LaysOut key layout.entries tags)
      : (split text).1.list key = tags := by
    rw [list_eq, written.values_eq, Layout.values]
    exact laid.flatMap_eq
  refine ⟨⟨fun same => ?_, fun ⟨layout, written, laid⟩ => read written laid⟩,
    fun one two first second before behind => list_eq_of_values⟩
  obtain ⟨layout, written⟩ := exists_layout text
  obtain ⟨others, laid⟩ := exists_laysOut key layout.entries
  rw [← same, read written laid]
  exact ⟨layout, written, laid⟩

/-- Tags behind the line of their key and on it, with commas to spare and another key between. -/
def scatteredTags : String := "Tags:\n    a b, ,c,\nshow: no\n  TAGS:d ,, e\n     f"

theorem list_scatteredTags
    : let tags := ["a b", "c", "d", "e", "f"]
      let one := (empty.push "tags" "a").push "tags" "b"
      let two := empty.push "tags" "a,b"
      (∃ layout : Layout, layout.Writes scatteredTags ∧ LaysOut "tags" layout.entries tags)
        ∧ one.values "tags" = [] ++ "a" :: "b" :: []
        ∧ two.values "tags" = [] ++ ("a" ++ "," ++ "b") :: []
        ∧ one.list "tags" = two.list "tags" := by
  intro tags one two
  have listed : (split scatteredTags).1.list "tags" = tags := by decide +kernel
  have apart : one.values "tags" = [] ++ "a" :: "b" :: [] := by decide +kernel
  have joined : two.values "tags" = [] ++ ("a" ++ "," ++ "b") :: [] := by decide +kernel
  obtain ⟨read, same⟩ := list_eq_iff_laysOut scatteredTags "tags" tags
  exact ⟨read.mp listed, apart, joined, same one two "a" "b" [] [] apart joined⟩

end Publication.Header
