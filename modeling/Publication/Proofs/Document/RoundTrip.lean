import Publication.Document.Replay
import Publication.Proofs.Document.Building
import Publication.Proofs.Text.Lines

/-! From events to a tree and back. Replaying the tree of well-nested events gives the events again,
but for what the nodes have no room for.
-/

namespace Publication.Document

open Publication.Markdown

-----------------------------------------------------------------------------------------
-- What is kept
-----------------------------------------------------------------------------------------

/-- What a tree keeps of a tag. -/
def keptTag : Tag → Tag
  | .heading level _ _ _ => .heading level none [] []
  | .blockQuote _ => .blockQuote none
  | .codeBlock (.fenced info) =>
      if info = "" then .codeBlock .indented
      else .codeBlock (.fenced (String.ofList ((Text.words info.toList).head?.getD [])))
  | .link kind dest title _ => .link (if kind = .email then .email else .inline) dest title ""
  | .image _ dest title _ => .image .inline dest title ""
  | tag => tag

/-- The text of an event that stands alone. -/
def shownEvent : Event → String
  | .text content => content
  | .code content => content
  | .math display content => Node.formulaMark display ++ content ++ Node.formulaMark display
  | .footnoteReference label => label
  | .softBreak => "\n"
  | .hardBreak => "\n"
  | _ => ""

mutual

/-- The text of an element, without its markup. An image has none: what it encloses is described,
and is not there.
-/
def shown : Element → String
  | .leaf event _ => shownEvent event
  | .container .htmlBlock _ => ""
  | .container (.image _ _ _ _) _ => ""
  | .container _ inner => shownAll inner

def shownAll : List Element → String
  | [] => ""
  | element :: rest => shown element ++ shownAll rest

end

mutual

/-- What a tree keeps of an element. What an image encloses becomes a text. -/
def kept : Element → Element
  | .leaf event alone => .leaf event alone
  | .container (.image kind dest title id) inner =>
      .container (keptTag (.image kind dest title id))
        (if shownAll inner = "" then [] else [.leaf (.text (shownAll inner)) rfl])
  | .container tag inner => .container (keptTag tag) (keptAll inner)

def keptAll : List Element → List Element
  | [] => []
  | element :: rest => kept element :: keptAll rest

end

/-- Whether an element is a line of raw HTML. -/
def IsMarkup : Element → Prop
  | .leaf (.html _) _ => True
  | _ => False

/-- The tags of tables and their parts. -/
def isTabular : Tag → Bool
  | .table _ => true
  | .tableHead => true
  | .tableRow => true
  | .tableCell => true
  | _ => false

mutual

/-- Whether there is no table in an element, and no part of one. -/
def Free : Element → Prop
  | .leaf _ _ => True
  | .container tag inner => isTabular tag = false ∧ FreeAll inner

def FreeAll : List Element → Prop
  | [] => True
  | element :: rest => Free element ∧ FreeAll rest

end

/-- Whether elements begin with a head that has a cell for each column. In the cells there is no
table, nor a part of one: a cell there would be counted as a column.
-/
def BeginsWithHead (columns : Nat) (elements : List Element) : Prop :=
  ∃ cells rest,
    elements = .container .tableHead cells :: rest
    ∧ cells.length = columns
    ∧ ∀ cell ∈ cells, ∃ inner, cell = .container .tableCell inner ∧ FreeAll inner

mutual

/-- Whether an element is in good order: raw HTML stands in HTML blocks, which hold nothing else,
headings have a level from one to six, and tables begin with their heads.
-/
def Orderly : Element → Prop
  | .leaf event _ => ∀ content, event ≠ .html content
  | .container .htmlBlock inner => ∀ element ∈ inner, IsMarkup element
  | .container (.heading level _ _ _) inner => (1 ≤ level ∧ level ≤ 6) ∧ OrderlyAll inner
  | .container (.table alignments) inner =>
      BeginsWithHead alignments.length inner ∧ OrderlyAll inner
  | .container _ inner => OrderlyAll inner

def OrderlyAll : List Element → Prop
  | [] => True
  | element :: rest => Orderly element ∧ OrderlyAll rest

end

-----------------------------------------------------------------------------------------
-- Texts
-----------------------------------------------------------------------------------------

theorem flatten_leafOf {event : Event} (alone : event.isLeaf = true)
    : (leafOf event).flatten = shownEvent event := by
  cases event with
  | start => cases alone
  | stop => cases alone
  | _ =>
      simp [leafOf, Builder.step, Builder.add, Node.addChild, Node.leaf, Node.flatten, shownEvent,
        Node.flattenAll]

/-- The text of a container is that of what is in it, unless that is not shown. -/
theorem flatten_folded {c : Columns} {tag : Tag} {inner : List Element} {nodes : List Node}
    (inside : Node.flattenAll nodes = shownAll inner)
    : (Builder.folded { c.opened tag with children := nodes }).flatten
      = shown (.container tag inner) := by
  cases tag with
  | codeBlock kind =>
      cases kind with
      | indented =>
          simp [Columns.opened, Builder.start, Builder.push, Node.flatten, shown, inside,
            Builder.folded]
      | fenced info =>
          simp only [Columns.opened, Builder.start]
          split <;>
            simp [Node.flatten, shown, inside, Builder.folded, Builder.push]
  | _ =>
      simp [Columns.opened, Builder.start, Builder.push, Builder.folded, Node.setAttr, Node.flatten,
        Node.flattenAll, shown, inside]

mutual

/-- The text of a node is that of its element. -/
theorem flatten_nodeOf : ∀ (element : Element) (c : Columns),
    (nodeOf c element).1.flatten = shown element
  | .leaf _ alone, _ => flatten_leafOf alone
  | .container tag inner, c => flatten_folded (flattenAll_nodesOf inner (c.behind tag))

theorem flattenAll_nodesOf : ∀ (elements : List Element) (c : Columns),
    Node.flattenAll (nodesOf c elements).1 = shownAll elements
  | [], _ => rfl
  | element :: rest, c => by
      simp only [nodesOf, Node.flattenAll, shownAll, flatten_nodeOf element,
        flattenAll_nodesOf rest]

end

-----------------------------------------------------------------------------------------
-- Columns
-----------------------------------------------------------------------------------------

theorem behind_of_not_tabular {tag : Tag} (other : isTabular tag = false) (c : Columns)
    : c.behind tag = c := by
  cases tag with
  | codeBlock kind =>
      cases kind with
      | indented => rfl
      | fenced info =>
          simp only [Columns.behind, Builder.start]
          split <;> rfl
  | table => cases other
  | tableHead => cases other
  | tableRow => cases other
  | tableCell => cases other
  | _ => rfl

mutual

/-- What has no table in it leaves the columns as they are. -/
theorem columns_of_free : ∀ (element : Element) (c : Columns),
    Free element → (nodeOf c element).2 = c
  | .leaf _ _, _, _ => rfl
  | .container tag inner, c, ⟨other, within⟩ => by
      simp only [nodeOf, behind_of_not_tabular other]
      exact columns_of_freeAll inner c within

theorem columns_of_freeAll : ∀ (elements : List Element) (c : Columns),
    FreeAll elements → (nodesOf c elements).2 = c
  | [], _, _ => rfl
  | element :: rest, c, ⟨first, others⟩ => by
      simp only [nodesOf, columns_of_free element c first]
      exact columns_of_freeAll rest c others

end

/-- A cell is aligned as its column is. -/
theorem alignment_cell (c : Columns) (nodes : List Node)
    : Node.alignment (Builder.folded { c.opened .tableCell with children := nodes })
      = (c.alignments[c.next]?).getD .none := by
  simp only [Columns.opened, Columns.builder, Builder.start, Builder.push, Builder.withColumns,
    List.headD_cons]
  rcases c.alignments[c.next]? with _ | _ | _ | _ | _ <;> rfl

/-- The cells of a head tell the alignments of the columns, by induction on them. -/
theorem map_alignment_cells {cells : List Element}
    (proper : ∀ cell ∈ cells, ∃ inner, cell = .container .tableCell inner ∧ FreeAll inner)
    (c : Columns) (count : c.next + cells.length = c.alignments.length)
    : (nodesOf c cells).1.map Node.alignment = c.alignments.drop c.next := by
  induction cells generalizing c with
  | nil => exact (List.drop_eq_nil_of_le (Nat.le_of_eq count.symm)).symm
  | cons cell rest ih =>
      obtain ⟨inner, rfl, free⟩ := proper cell List.mem_cons_self
      have inside : c.next < c.alignments.length := by
        rw [← count, List.length_cons]
        omega
      have behind : (nodeOf c (.container .tableCell inner)).2 = ⟨c.alignments, c.next + 1⟩ :=
        columns_of_freeAll inner _ free
      have others := ih (fun cell member => proper cell (List.mem_cons_of_mem _ member))
        ⟨c.alignments, c.next + 1⟩ (by rw [← count, List.length_cons, Nat.add_right_comm]; rfl)
      rw [List.drop_eq_getElem_cons inside]
      simp only [nodesOf, List.map_cons, behind, others]
      congr 1
      rw [nodeOf, alignment_cell, List.getElem?_eq_getElem inside]
      rfl

/-- A table is told its alignments by its head. -/
theorem columnAlignments_nodesOf {alignments : List ColumnAlignment} {elements : List Element}
    (headed : BeginsWithHead alignments.length elements) (c : Columns)
    : Node.columnAlignments (nodesOf (c.behind (.table alignments)) elements).1 = alignments := by
  obtain ⟨cells, rest, rfl, count, proper⟩ := headed
  have told := map_alignment_cells proper ⟨alignments, 0⟩ (by rw [Nat.zero_add, count])
  exact told

-----------------------------------------------------------------------------------------
-- Replaying
-----------------------------------------------------------------------------------------

theorem events_leafOf {event : Event} (alone : event.isLeaf = true)
    (plain : ∀ content, event ≠ .html content)
    : (leafOf event).events = [event] := by
  cases event with
  | start => cases alone
  | stop => cases alone
  | html content => exact absurd rfl (plain content)
  | _ => rfl

/-- Lines of raw HTML are kept as they are. -/
theorem map_html_nodesOf {elements : List Element} (markup : ∀ element ∈ elements, IsMarkup element)
    (c : Columns)
    : (nodesOf c elements).1.map (fun child => Event.html child.textOr)
      = Element.eventsAll (keptAll elements) := by
  induction elements generalizing c with
  | nil => rfl
  | cons element rest ih =>
      have others := ih (fun other member => markup other (List.mem_cons_of_mem _ member))
      cases element with
      | container => exact absurd (markup _ List.mem_cons_self) id
      | leaf event alone =>
          cases event with
          | html content =>
              simp only [nodesOf, nodeOf, List.map_cons, others]
              rfl
          | _ => exact absurd (markup _ List.mem_cons_self) id

/-- A code block keeps the language of its class. -/
theorem codeKind_language (language : String)
    : Node.codeKind (some ("language-" ++ language)) = .fenced language := by
  have cut : Text.strip? "language-".toList ("language-" ++ language).toList
      = some language.toList :=
    Text.strip?_eq_some_iff.mpr String.toList_append
  simp only [Node.codeKind, Option.bind_some, cut, String.ofList_toList]

section

variable (c : Columns) (nodes : List Node)

/-- A code block is replayed with the language of its tag. -/
theorem events_codeBlock (kind : CodeKind)
    : (Builder.folded { c.opened (.codeBlock kind) with children := nodes }).events
      = (keptTag (.codeBlock kind)).around (Node.eventsAll nodes) := by
  cases kind with
  | indented => rfl
  | fenced info =>
      by_cases empty : info = ""
      · subst empty
        rfl
      · have told : info.isEmpty = false := by simp [empty]
        have fenced := codeKind_language (Builder.language info)
        rw [Builder.language] at fenced
        rw [keptTag, if_neg empty, ← fenced]
        simp only [Columns.opened, Builder.start, told]
        rfl

/-- A link is replayed as one to an address of mail, or as any other. -/
theorem events_link (kind : LinkKind) (dest title id : String)
    : (Builder.folded { c.opened (.link kind dest title id) with children := nodes }).events
      = (keptTag (.link kind dest title id)).around (Node.eventsAll nodes) := by
  by_cases email : kind = .email
  · subst email
    rfl
  · have told : decide (kind = .email) = false := decide_eq_false email
    rw [keptTag, if_neg email]
    simp only [Columns.opened, Builder.start, told]
    rfl

/-- An image is replayed with the text of what is in it, if there is any. -/
theorem events_image (kind : LinkKind) (dest title id : String)
    : (Builder.folded { c.opened (.image kind dest title id) with children := nodes }).events
      = (Tag.image .inline dest title "").around
          (if Node.flattenAll nodes = "" then [] else [.text (Node.flattenAll nodes)]) := by
  change (Tag.image .inline dest title "").around
    (if (Node.flattenAll nodes).isEmpty then [] else [.text (Node.flattenAll nodes)]) = _
  by_cases empty : Node.flattenAll nodes = ""
  · rw [empty]
    rfl
  · have told : (Node.flattenAll nodes).isEmpty = false := by simp [empty]
    rw [if_neg empty, told]
    rfl

end

/-- A container is replayed with what is in it. -/
theorem events_container {c : Columns} {tag : Tag} {inner : List Element}
    (orderly : Orderly (.container tag inner))
    (inside
      : OrderlyAll inner →
          Node.eventsAll (nodesOf (c.behind tag) inner).1 = Element.eventsAll (keptAll inner))
    : (nodeOf c (.container tag inner)).1.events = (kept (.container tag inner)).events := by
  cases tag with
  | htmlBlock =>
      have lines := map_html_nodesOf orderly c
      simp only [nodeOf, kept, keptTag, Element.events, ← lines]
      rfl
  | heading level id classes attrs =>
      obtain ⟨levels, within⟩ := orderly
      have written : Node.writtenLevel level = level := if_pos levels
      simp only [nodeOf, kept, keptTag, Element.events, ← inside within]
      change (Tag.heading (Node.writtenLevel level) none [] []).around _ = _
      rw [written]
  | codeBlock kind =>
      simp only [nodeOf, kept, Element.events, ← inside orderly, events_codeBlock]
  | table alignments =>
      obtain ⟨headed, within⟩ := orderly
      have columns := columnAlignments_nodesOf headed c
      simp only [nodeOf, kept, keptTag, Element.events, ← inside within]
      change (Tag.table (Node.columnAlignments _)).around _ = _
      rw [columns]
  | image kind dest title id =>
      have text : Node.flattenAll (nodesOf (c.behind (.image kind dest title id)) inner).1
          = shownAll inner := flattenAll_nodesOf inner _
      simp only [nodeOf, kept, keptTag, Element.events, events_image, text]
      split <;> rfl
  | link kind dest title id =>
      simp only [nodeOf, kept, Element.events, ← inside orderly, events_link]
  | _ =>
      have within := inside orderly
      simp only [nodeOf, kept, keptTag, Element.events, ← within]
      rfl

mutual

/-- Replaying a node gives the events that are kept of its element. -/
theorem events_nodeOf : ∀ (element : Element) (c : Columns),
    Orderly element → (nodeOf c element).1.events = (kept element).events
  | .leaf _ alone, _, plain => events_leafOf alone plain
  | .container tag inner, c, orderly =>
      events_container orderly fun within => eventsAll_nodesOf inner (c.behind tag) within

theorem eventsAll_nodesOf : ∀ (elements : List Element) (c : Columns),
    OrderlyAll elements →
      Node.eventsAll (nodesOf c elements).1 = Element.eventsAll (keptAll elements)
  | [], _, _ => rfl
  | element :: rest, c, ⟨first, others⟩ => by
      simp only [nodesOf, Node.eventsAll, keptAll, Element.eventsAll, events_nodeOf element c first,
        eventsAll_nodesOf rest _ others]

end

/-- Replaying the tree of well-nested events gives them again, if they are in good order, but for
what is not kept of their forest.
-/
theorem events_ofEvents {events : List Event} (nested : nests [] events = true)
    : ∃ elements,
        (∀ others, Element.eventsAll others = events ↔ others = elements)
        ∧ (OrderlyAll elements →
            (ofEvents events).events = Element.eventsAll (keptAll elements)) := by
  obtain ⟨elements, unique⟩ := exists_forest_of_nests nested
  refine ⟨elements, unique, fun orderly => ?_⟩
  rw [← (unique elements).mpr rfl, ofEvents_eventsAll]
  exact eventsAll_nodesOf elements ⟨[], 0⟩ orderly

/-- A heading with an id, a table of two columns and an image with emphasized text. -/
def sampler : List Element :=
  [.container (.heading 2 (some "results") ["wide"] []) [.leaf (.text "Results") rfl],
   .container (.table [.left, .none])
    [.container .tableHead
      [.container .tableCell [.leaf (.text "size") rfl], .container .tableCell []],
     .container .tableRow [.container .tableCell [.leaf (.code "2") rfl]]],
   .container .paragraph
    [.container (.image .reference "plot.png" "" "plot")
      [.leaf (.text "a ") rfl, .container .emphasis [.leaf (.math false "x") rfl]]]]

theorem events_sampler
    : nests [] (Element.eventsAll sampler) = true
      ∧ (ofEvents (Element.eventsAll sampler)).events
        = (Tag.heading 2 none [] []).around [.text "Results"]
          ++ (Tag.table [.left, .none]).around
            (Tag.tableHead.around (Tag.tableCell.around [.text "size"] ++ Tag.tableCell.around [])
              ++ Tag.tableRow.around (Tag.tableCell.around [.code "2"]))
          ++ Tag.paragraph.around
              ((Tag.image .inline "plot.png" "" "").around [.text "a $x$"]) := by
  have nested : nests [] (Element.eventsAll sampler) = true := by decide +kernel
  obtain ⟨elements, unique, replayed⟩ := events_ofEvents nested
  obtain rfl := (unique sampler).mp rfl
  have headed : BeginsWithHead 2
      [.container .tableHead
        [.container .tableCell [.leaf (.text "size") rfl], .container .tableCell []],
       .container .tableRow [.container .tableCell [.leaf (.code "2") rfl]]] := by
    refine ⟨_, _, rfl, rfl, fun cell member => ?_⟩
    simp only [List.mem_cons, List.not_mem_nil, or_false] at member
    rcases member with rfl | rfl
    · exact ⟨_, rfl, trivial, trivial⟩
    · exact ⟨_, rfl, trivial⟩
  have orderly : OrderlyAll sampler := by
    simp [sampler, OrderlyAll, Orderly, headed]
  refine ⟨nested, (replayed orderly).trans ?_⟩
  decide +kernel

end Publication.Document
