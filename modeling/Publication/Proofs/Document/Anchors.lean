import Publication.Document.Contents
import Publication.Proofs.Document.Redirection
import Publication.Text.Transliteration.Table

/-! The anchors of headings. Each heading is listed once and has an anchor of its own, a plain word;
the headings that are replayed are those that are listed.
-/

namespace Publication

open Publication.Markdown Publication.Naming

/-- The level and the identifier of a container, if it is a heading. -/
def Markdown.Tag.heading? : Tag → Option (Nat × Option String)
  | .heading level id _ _ => some (level, id)
  | _ => none

/-- The levels and the identifiers of the headings of events. -/
def Markdown.headings (events : List Event) : List (Nat × Option String) :=
  events.filterMap fun event => event.opened?.bind Tag.heading?

namespace Document

-----------------------------------------------------------------------------------------
-- Anchors
-----------------------------------------------------------------------------------------

/-- An anchor is derived from a plain word, also where a label has no slug. -/
theorem isPlain_anchorBase [Transliteration] (label : String) : IsPlain (anchorBase label) := by
  simp only [anchorBase]
  split
  next => exact ⟨by decide, by simp [fallbackAnchor, isPlainChar]⟩
  next filled => exact isPlain_slugify fun empty => filled (by rw [empty]; rfl)

/-- The entries have the anchors that were given out, which are different plain words. -/
structure Contents.Sound (contents : Contents) : Prop where
  ids : contents.entries.map (·.id) = contents.anchors.taken.reverse
  distinct : contents.anchors.taken.Nodup
  plain : ∀ id ∈ contents.anchors.taken, IsPlain id

theorem Contents.sound_empty : Contents.Sound {} where
  ids := rfl
  distinct := List.nodup_nil
  plain := List.forall_mem_nil _

theorem Contents.Sound.visit [Transliteration] {contents : Contents} (sound : contents.Sound)
    (node : Node)
    : (contents.visit node).2.Sound := by
  simp only [Contents.visit]
  split
  next =>
      refine ⟨?_, ?_, ?_⟩
      · simp [Registry.claim, sound.ids]
      · exact List.nodup_cons.mpr ⟨unique_not_mem _ _, sound.distinct⟩
      · exact List.forall_mem_cons.mpr ⟨(isPlain_anchorBase _).unique _, sound.plain⟩
  next => exact sound

-----------------------------------------------------------------------------------------
-- Entries
-----------------------------------------------------------------------------------------

/-- How headings are recorded. -/
def anchoring : Recording Entry where
  records node entry key :=
    node.kind = .heading entry.level ∧ entry.label = Text.trimmed node.flatten ∧ key = "id"
  value := Entry.id

theorem guides_anchoring [Transliteration] : anchoring.Guides Contents.entries Contents.visit := by
  intro contents node
  simp only [Contents.visit]
  split
  next level own => exact .inr ⟨_, "id", ⟨own, rfl, rfl⟩, rfl, rfl⟩
  next other => exact .inl ⟨fun entry _ ⟨own, _⟩ => other entry.level own, rfl⟩

/-- A heading that has its anchor is left alone by the visit that gave it. -/
theorem Contents.visit_again [Transliteration] (contents : Contents) (node : Node)
    (children : List Node) (below : Node.flattenAll children = Node.flattenAll node.children)
    : contents.visit { (contents.visit node).1 with children := children }
      = ({ (contents.visit node).1 with children := children }, (contents.visit node).2) := by
  obtain ⟨kind, text, attrs, inner⟩ := node
  cases kind with
  | heading level =>
      have same (attrs' : List (String × String))
          : Node.flatten ⟨.heading level, text, attrs', children⟩
            = Node.flatten ⟨.heading level, text, attrs, inner⟩ :=
        Node.flatten_congr rfl (fun _ => rfl) below
      simp only [Contents.visit, Node.setAttr, same, Node.setAttrIn_setAttrIn]
  | _ => rfl

/-- The level and the label of a heading. -/
def Node.outline? (node : Node) : Option (Nat × String) :=
  match node.kind with
  | .heading level => some (level, Text.trimmed node.flatten)
  | _ => none

/-- The level and the identifier that a heading is replayed with. -/
def Node.heading? (node : Node) : Option (Nat × Option String) :=
  match node.kind with
  | .heading level => some (Node.writtenLevel level, node.attr? "id")
  | _ => none

theorem Node.heading?_opening (node : Node)
    : node.opening?.bind Tag.heading? = node.heading? := by
  obtain ⟨kind, text, attrs, children⟩ := node
  cases kind <;> rfl

theorem Node.headings_events {node : Node} (formed : node.WellFormed)
    : headings node.events = node.preorder.filterMap Node.heading? := by
  rw [headings, filterMap_events Tag.heading? formed]
  exact congrArg (node.preorder.filterMap ·) (funext Node.heading?_opening)

/-- The entries list the headings of a tree. -/
theorem outlines_of_holds {before after : List Node} {entries : List Entry}
    (held : anchoring.Holds before entries after)
    : before.filterMap Node.outline? = entries.map fun entry => (entry.level, entry.label) := by
  induction held with
  | nil => rfl
  | @kept node _ _ _ _ other _ _ ih =>
      have plain : node.outline? = none := by
        simp only [Node.outline?]
        split
        next level own => exact absurd ⟨own, rfl, rfl⟩ (other ⟨level, _, ""⟩ "id")
        next => rfl
      rw [List.filterMap_cons, plain, ih]
  | @recorded node _ _ _ entry _ _ own _ _ ih =>
      have listed : node.outline? = some (entry.level, entry.label) := by
        rw [Node.outline?, own.1, own.2.1]
      rw [List.filterMap_cons, listed, ih, List.map_cons]

/-- The headings of the tree with anchors are those that the entries list. -/
theorem headings_of_holds {before after : List Node} {entries : List Entry}
    (held : anchoring.Holds before entries after)
    (levels : ∀ node ∈ before, ∀ level, node.kind = .heading level → 1 ≤ level ∧ level ≤ 6)
    : after.filterMap Node.heading? = entries.map fun entry => (entry.level, some entry.id) := by
  induction held with
  | nil => rfl
  | @kept node revised _ _ _ other same _ ih =>
      have plain : revised.heading? = none := by
        simp only [Node.heading?]
        split
        next level own =>
            exact absurd ⟨same.kind.symm.trans own, rfl, rfl⟩ (other ⟨level, _, ""⟩ "id")
        next => rfl
      rw [List.filterMap_cons, plain, ih (List.forall_mem_cons.mp levels).2]
  | @recorded node revised _ _ entry _ key own set _ ih =>
      obtain ⟨kind, _, rfl⟩ := own
      obtain ⟨bounds, others⟩ := List.forall_mem_cons.mp levels
      have written : Node.writtenLevel entry.level = entry.level := if_pos (bounds _ kind)
      have replayed : revised.heading? = some (entry.level, some entry.id) := by
        simp only [Node.heading?, set.kind, kind, Node.attr?_of_set set.attrs, written, anchoring]
      rw [List.filterMap_cons, replayed, ih others, List.map_cons]

-----------------------------------------------------------------------------------------
-- Tables of contents
-----------------------------------------------------------------------------------------

section

variable [Transliteration]

theorem extractContents_eq (document : Node)
    : extractContents document
      = ((document.revise Contents.visit {}).2.entries, (document.revise Contents.visit {}).1) :=
  rfl

theorem holds_extractContents (document : Node)
    : anchoring.Holds document.preorder (extractContents document).1
        (extractContents document).2.preorder := by
  obtain ⟨found, added, held⟩ := guides_anchoring.revise document {}
  rw [extractContents_eq, added]
  exact held

theorem sound_extractContents (document : Node)
    : ((extractContents document).1.map (·.id)).Nodup
      ∧ ∀ entry ∈ (extractContents document).1, IsPlain entry.id := by
  have sound : (document.revise Contents.visit {}).2.Sound :=
    Node.revise_keeps (fun _ node before => before.visit node) document _ Contents.sound_empty
  rw [extractContents_eq]
  refine ⟨?_, fun entry member => ?_⟩
  · rw [sound.ids]
    exact List.pairwise_reverse.mpr (sound.distinct.imp Ne.symm)
  · have among := List.mem_map_of_mem (f := (·.id)) member
    rw [sound.ids] at among
    exact sound.plain entry.id (List.mem_reverse.mp among)

theorem extractContents_again (document : Node)
    : extractContents (extractContents document).2
      = ((extractContents document).1, (extractContents document).2) := by
  have again := Node.revise_again guides_anchoring.setsAttributes
    (fun contents node children => contents.visit_again node children) document {}
  rw [extractContents_eq document, extractContents_eq, again]

theorem wellFormed_extractContents {document : Node} (formed : document.WellFormed)
    : (extractContents document).2.WellFormed := by
  rw [extractContents_eq]
  exact Node.WellFormed.revise guides_anchoring.setsAttributes document _ formed

theorem kind_extractContents (document : Node)
    : (extractContents document).2.kind = document.kind := by
  rw [extractContents_eq]
  exact Node.kind_revise guides_anchoring.setsAttributes.keepsProse document _

/-- The headings of a document with anchors are replayed with them. -/
theorem headings_extractContents {document : Node} (root : document.kind = .document)
    (formed : document.WellFormed)
    : headings (Node.eventsAll (extractContents document).2.children)
      = (extractContents document).1.map fun entry => (entry.level, some entry.id) := by
  rw [← Node.events_of_document ((kind_extractContents document).trans root),
    Node.headings_events (wellFormed_extractContents formed)]
  exact headings_of_holds (holds_extractContents document) (Node.WellFormed.level document formed)

/-- The table of contents and the replayed document agree: the headings are replayed with the levels
and the anchors of the entries, the anchors are different plain words, the labels are the texts of
the headings, and extracting the contents again changes nothing.
-/
theorem extractContents_agrees (markdown directory : String) (dir : Path)
    : let linked := (extractResources (parse markdown) directory dir).2
      let entries := (extractContents linked).1
      let anchored := (extractContents linked).2
      headings (Node.eventsAll anchored.children)
        = entries.map (fun entry => (entry.level, some entry.id))
      ∧ (entries.map (·.id)).Nodup
      ∧ (∀ entry ∈ entries, IsPlain entry.id)
      ∧ linked.preorder.filterMap Node.outline?
        = entries.map (fun entry => (entry.level, entry.label))
      ∧ extractContents anchored = (entries, anchored) := by
  intro linked entries anchored
  have root : linked.kind = .document :=
    (kind_extractResources (parse markdown) directory dir).trans (kind_parse markdown)
  have formed : linked.WellFormed :=
    wellFormed_extractResources (wellFormed_parse markdown) directory dir
  obtain ⟨distinct, plain⟩ := sound_extractContents linked
  exact ⟨headings_extractContents root formed, distinct, plain,
    outlines_of_holds (holds_extractContents linked), extractContents_again linked⟩

end

section

open scoped Publication.StandIns

/-- An anchor with a number may meet a heading that is written so. -/
example : (extractContents (parse "# Intro\n\n# Intro\n\n# 1_intro\n")).1.map (·.id)
    = ["intro", "1_intro", "1_1_intro"] := by
  decide +kernel

end

end Document
end Publication
