import Publication.Proofs.Article.Copies
import Publication.Proofs.FileSystem.Directories
import Publication.Proofs.Header.Layouts

/-! The paths that an article includes. They are what the values of the header name, and a key with
nothing behind it on its line has an empty value first, which names the directory of the manuscript.
So the layout of the header matters to the includes exactly where such a line is empty.
-/

namespace Publication

open Publication.Text
open Publication.Header (Layout normalKey split)
open Publication.Latex (Bench Renderer bind_eq_ok_iff eq_ok_of_toOption pure_eq_ok_iff sketcher)

/-- The empty name in a directory leads to the directory itself. -/
theorem Path.place_child_empty (dir : Path) (here : Location)
    : (dir.child "").place here = dir.place here := by
  have relative : (Path.mk "").isAbsolute = false := rfl
  cases last : dir.text.toList.getLast? with
  | none =>
      obtain ⟨text⟩ := dir
      obtain rfl := String.toList_eq_nil_iff.mp (List.getLast?_eq_none_iff.mp last)
      rfl
  | some c =>
      by_cases slash : c = '/'
      · subst slash
        simp [child, join, relative, last]
      · have filled : dir.isEmpty = false := by
          rw [isEmpty_eq_false_iff]
          rintro nothing
          rw [nothing] at last
          cases last
        have text : (dir.child "").text.toList = dir.text.toList ++ List.replicate 1 '/' := by
          simp [child, join, relative, last]
        have start := (isAbsolute_of_append filled text).2
        simp only [place, origin, start, text, splitOn_separators, Location.walk_append,
          Location.walk_replicate_nil]

-----------------------------------------------------------------------------------------
-- Values that say something
-----------------------------------------------------------------------------------------

namespace Header

/-- Values without those that are blank. -/
def shown (values : List String) : List String :=
  values.filter fun value => !allBlank value.toList

/-- A further line always carries something, so only the line of the key may be blank. -/
theorem Entry.values_eq_shown (entry : Entry)
    : entry.values = (if allBlank entry.content then [""] else []) ++ shown entry.values := by
  have further : shown (entry.further.map fun one => String.ofList (trim one.content))
      = entry.further.map fun one => String.ofList (trim one.content) := by
    refine List.filter_eq_self.mpr fun value member => ?_
    obtain ⟨one, _, rfl⟩ := List.mem_map.mp member
    rw [String.toList_ofList, allBlank_trim, one.shown]
    rfl
  have values : entry.values = String.ofList (trim entry.content)
      :: entry.further.map fun one => String.ofList (trim one.content) := by
    simp only [Entry.values, Entry.contents, List.map_cons, List.map_map, Function.comp_def]
  have cut (value : String) (values : List String)
      : shown (value :: values) = shown [value] ++ shown values := by
    rw [← List.singleton_append, shown, List.filter_append]
    rfl
  rw [values, cut, further]
  cases blank : allBlank entry.content with
  | true =>
      rw [trim_eq_nil_iff.mpr blank]
      rfl
  | false => simp [shown, allBlank_trim, blank]

/-- All values of entries say something exactly if none of them has a line without a value. -/
theorem shown_eq_self_iff (entries : List Entry)
    : shown (entries.flatMap Entry.values) = entries.flatMap Entry.values
      ↔ ∀ entry ∈ entries, allBlank entry.content = false := by
  rw [shown, List.filter_eq_self]
  constructor
  · intro each entry among
    have first := each (String.ofList (trim entry.content))
      (List.mem_flatMap.mpr ⟨entry, among, List.mem_cons_self⟩)
    rwa [String.toList_ofList, allBlank_trim, Bool.not_eq_true'] at first
  · intro filled value member
    obtain ⟨entry, among, inside⟩ := List.mem_flatMap.mp member
    rw [entry.values_eq_shown, filled entry among] at inside
    exact (List.mem_filter.mp inside).2

end Header

-----------------------------------------------------------------------------------------
-- Includes
-----------------------------------------------------------------------------------------

section

variable [Transliteration] [Image.Scaler] {renderer : Renderer} {config : Config}
  {manuscript : Manuscript} {bench done : Bench} {article : Article}

/-- An article includes what each value of its header names. -/
theorem includes_of_compile
    (compiled : compile renderer config manuscript bench = (.ok article, done))
    : article.includes
      = ((split manuscript.text).1.values "include").map (includePath manuscript.dir) := by
  rw [compile_eq] at compiled
  obtain ⟨expanded, _, _, rest⟩ := bind_eq_ok_iff.mp compiled
  obtain ⟨covered, _, _, ended⟩ := bind_eq_ok_iff.mp rest
  obtain ⟨rfl, _⟩ := pure_eq_ok_iff.mp ended
  rfl

/-- An article includes what the values of its header name, entry by entry, and before them, for an
entry without a value on the line of its key, the directory of the manuscript. So it includes what
the values that are not blank name, and nothing else, exactly if no such line is empty.
-/
theorem includes_eq_iff
    (compiled : compile renderer config manuscript bench = (.ok article, done)) {layout : Layout}
    (written : layout.Writes manuscript.text)
    : let dir := manuscript.dir
      let entries := layout.entries.filter fun entry => normalKey entry.key = "include"
      let given := (split manuscript.text).1.values "include"
      article.includes
          = (entries.flatMap fun entry =>
              (if allBlank entry.content then [dir.child ""] else [])
                ++ (Header.shown entry.values).map (includePath dir))
        ∧ (∀ here, (dir.child "").place here = dir.place here)
        ∧ (article.includes = (Header.shown given).map (includePath dir)
          ↔ ∀ entry ∈ entries, allBlank entry.content = false) := by
  intro dir entries given
  have values : given = entries.flatMap Header.Entry.values := written.values_eq "include"
  have included : article.includes = given.map (includePath dir) := includes_of_compile compiled
  refine ⟨?_, dir.place_child_empty, ?_⟩
  · rw [included, values, List.map_flatMap]
    refine congrArg (List.flatMap · entries) (funext fun entry => ?_)
    have cut := congrArg (List.map (includePath dir)) entry.values_eq_shown
    rw [List.map_append] at cut
    rw [cut]
    split <;> rfl
  · rw [← Header.shown_eq_self_iff, ← values, included]
    constructor
    · intro same
      have length := congrArg List.length same
      rw [List.length_map, List.length_map] at length
      exact List.filter_sublist.eq_of_length length.symm
    · intro same
      rw [same]

end

-----------------------------------------------------------------------------------------
-- Data on the line of the key, and behind it
-----------------------------------------------------------------------------------------

section

open scoped Publication.StandIns

/-- A manuscript that includes a path on the line of the key, or none there, and one behind it. -/
def dataManuscript (first : String) : Manuscript :=
  ⟨"doc", ⟨"."⟩, "include:" ++ first ++ "\n    data\n\nText.\n"⟩

/-- What the manuscript is compiled to. -/
def dataArticle (first : Path) : Article where
  name := "doc"
  html := "<p>Text.</p>\n"
  contents := []
  record := { url := "doc", title := "doc", imgAlt := "doc", abstract := "Text." }
  resources := []
  includes := [first, ⟨"./data"⟩]
  usage := {}

theorem exists_compile_data {first : String} {path : Path}
    (known : first = " notes.txt" ∧ path = ⟨"./notes.txt"⟩ ∨ first = "" ∧ path = ⟨"./"⟩)
    : ∃ done,
        compile sketcher {} (dataManuscript first) ⟨⟨[], []⟩, []⟩
          = (.ok (dataArticle path), done) := by
  have given : (compile sketcher {} (dataManuscript first) ⟨⟨[], []⟩, []⟩).1.toOption
      = some (dataArticle path) := by
    rcases known with ⟨rfl, rfl⟩ | ⟨rfl, rfl⟩ <;> decide +kernel
  exact ⟨_, eq_ok_of_toOption given⟩

/-- Where just what the values name is included, no line of the key is empty in any layout. -/
theorem includes_data
    : ∃ (done : Bench) (layout : Layout),
        compile sketcher {} (dataManuscript " notes.txt") ⟨⟨[], []⟩, []⟩
          = (.ok (dataArticle ⟨"./notes.txt"⟩), done)
        ∧ layout.Writes (dataManuscript " notes.txt").text
        ∧ (dataArticle ⟨"./notes.txt"⟩).includes
          = (Header.shown ((split (dataManuscript " notes.txt").text).1.values "include")).map
              (includePath ⟨"."⟩)
        ∧ ∀ entry ∈ layout.entries.filter fun entry => normalKey entry.key = "include",
            allBlank entry.content = false := by
  obtain ⟨done, compiled⟩ := exists_compile_data (.inl ⟨rfl, rfl⟩)
  obtain ⟨layout, written⟩ := Header.exists_layout (dataManuscript " notes.txt").text
  obtain ⟨_, _, named⟩ := includes_eq_iff compiled written
  have values : Header.shown ((split (dataManuscript " notes.txt").text).1.values "include")
      = ["notes.txt", "data"] := by
    decide +kernel
  have included : (dataArticle ⟨"./notes.txt"⟩).includes
      = (Header.shown ((split (dataManuscript " notes.txt").text).1.values "include")).map
          (includePath ⟨"."⟩) := by
    rw [values]
    decide
  exact ⟨done, layout, compiled, written, included, named.mp included⟩

/-- Where the line of the key is empty, the directory of the manuscript is included as well: not all
that an article includes is what a value that is not blank names.
-/
theorem not_forall_includes
    : ¬ ∀ (renderer : Renderer) (config : Config) (manuscript : Manuscript) (bench done : Bench)
          (article : Article),
          compile renderer config manuscript bench = (.ok article, done) →
            article.includes
              = (Header.shown ((split manuscript.text).1.values "include")).map
                  (includePath manuscript.dir) := by
  intro named
  obtain ⟨done, compiled⟩ := exists_compile_data (.inr ⟨rfl, rfl⟩)
  have values : Header.shown ((split (dataManuscript "").text).1.values "include") = ["data"] := by
    decide +kernel
  have includes := named _ _ _ _ _ _ compiled
  rw [values] at includes
  exact absurd (congrArg List.length includes) (by decide)

end

end Publication
