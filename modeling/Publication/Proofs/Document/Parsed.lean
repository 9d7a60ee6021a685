import Publication.Document.Parser
import Publication.Proofs.Document.Replaying
import Publication.Proofs.Document.RoundTrip
import Publication.Proofs.Markdown.Outlines

/-! The trees of texts. The events of any text are those of a forest in good order, so its tree is
well-formed: whatever is in it is replayed.
-/

namespace Publication.Document

open Publication.Markdown

-----------------------------------------------------------------------------------------
-- Events in good order
-----------------------------------------------------------------------------------------

theorem orderlyAll_iff {elements : List Element}
    : OrderlyAll elements ↔ ∀ element ∈ elements, Orderly element := by
  induction elements with
  | nil => simp [OrderlyAll]
  | cons element rest ih => simp [OrderlyAll, ih]

/-- Events of a forest in good order. -/
def InOrder (events : List Event) : Prop :=
  ∃ elements, Element.eventsAll elements = events ∧ OrderlyAll elements

theorem inOrder_nil : InOrder [] := ⟨[], rfl, trivial⟩

theorem InOrder.append {front back : List Event} (first : InOrder front) (second : InOrder back)
    : InOrder (front ++ back) := by
  obtain ⟨elements, rfl, orderly⟩ := first
  obtain ⟨others, rfl, behind⟩ := second
  refine ⟨elements ++ others, Element.eventsAll_append _ _, orderlyAll_iff.mpr ?_⟩
  exact List.forall_mem_append.mpr ⟨orderlyAll_iff.mp orderly, orderlyAll_iff.mp behind⟩

/-- A container is in good order if what is in it is, and if it asks for nothing more. -/
theorem InOrder.around {events : List Event} (inside : InOrder events) (tag : Tag)
    (plain : ∀ inner, OrderlyAll inner → Orderly (.container tag inner))
    : InOrder (tag.around events) := by
  obtain ⟨elements, rfl, orderly⟩ := inside
  refine ⟨[.container tag elements], ?_, plain elements orderly, trivial⟩
  rw [Element.eventsAll, Element.eventsAll, List.append_nil, Element.events]

/-- Events that stand alone are those of leaves. -/
theorem exists_leaves {events : List Event} (alone : ∀ event ∈ events, event.isLeaf = true)
    : ∃ elements,
        Element.eventsAll elements = events
        ∧ ∀ element ∈ elements, ∃ event single, element = .leaf event single ∧ event ∈ events := by
  induction events with
  | nil => exact ⟨[], rfl, List.forall_mem_nil _⟩
  | cons event rest ih =>
      obtain ⟨own, others⟩ := List.forall_mem_cons.mp alone
      obtain ⟨elements, rfl, leaves⟩ := ih others
      refine ⟨.leaf event own :: elements, rfl, List.forall_mem_cons.mpr ⟨?_, ?_⟩⟩
      · exact ⟨event, own, rfl, List.mem_cons_self⟩
      · intro element member
        obtain ⟨other, single, same, among⟩ := leaves element member
        exact ⟨other, single, same, List.mem_cons_of_mem _ among⟩

theorem inOrder_of_leaves {events : List Event} (alone : ∀ event ∈ events, event.isLeaf = true)
    (plain : ∀ event ∈ events, ∀ content, event ≠ .html content)
    : InOrder events := by
  obtain ⟨elements, same, leaves⟩ := exists_leaves alone
  refine ⟨elements, same, orderlyAll_iff.mpr fun element member => ?_⟩
  obtain ⟨event, single, rfl, among⟩ := leaves element member
  exact plain event among

theorem inOrder_leaf {event : Event} (alone : event.isLeaf = true)
    (plain : ∀ content, event ≠ .html content)
    : InOrder [event] :=
  inOrder_of_leaves (List.forall_mem_singleton.mpr alone) (List.forall_mem_singleton.mpr plain)

-----------------------------------------------------------------------------------------
-- The events of texts
-----------------------------------------------------------------------------------------

mutual

/-- Inline elements are in good order, and there is no table in them. -/
theorem orderly_element : ∀ inline : Inline, Orderly inline.element ∧ Free inline.element
  | .text _ | .code _ | .math _ _ | .html _ | .footnote _ | .softBreak | .hardBreak _ =>
      ⟨fun _ => Event.noConfusion, trivial⟩
  | .styled style children => by
      obtain ⟨orderly, free⟩ := orderly_elements children
      cases style <;> exact ⟨orderly, rfl, free⟩
  | .link true _ _ _ _ children => by
      obtain ⟨orderly, free⟩ := orderly_elements children
      exact ⟨orderly, rfl, free⟩
  | .link false _ _ _ _ children => by
      obtain ⟨orderly, free⟩ := orderly_elements children
      exact ⟨orderly, rfl, free⟩

theorem orderly_elements : ∀ inlines : List Inline,
    OrderlyAll (Inline.elements inlines) ∧ FreeAll (Inline.elements inlines)
  | [] => ⟨trivial, trivial⟩
  | inline :: rest => by
      obtain ⟨orderly, free⟩ := orderly_element inline
      obtain ⟨others, freeOthers⟩ := orderly_elements rest
      exact ⟨⟨orderly, others⟩, free, freeOthers⟩

end

theorem inOrder_inline (inlines : List Inline) : InOrder (Inline.eventsAll inlines) :=
  ⟨Inline.elements inlines, Inline.eventsAll_elements inlines, (orderly_elements inlines).1⟩

/-- The events of a line are made of pieces of it. -/
theorem mem_lineEvents {make : String → Event} {line : Line} {event : Event}
    (member : event ∈ Line.events make line)
    : ∃ content, event = make content := by
  have piece {s : List Char} (inside : event ∈ if s.isEmpty then [] else [make (String.ofList s)])
      : ∃ content, event = make content := by
    split at inside
    · cases inside
    · exact ⟨_, List.mem_singleton.mp inside⟩
  simp only [Line.events] at member
  split at member
  · exact piece member
  · rcases List.mem_append.mp member with inside | inside
    · exact piece inside
    · exact ⟨_, List.mem_singleton.mp inside⟩
  · exact piece member

/-- The events of lines are made of pieces of them. -/
theorem made_of_mem_lines {make : String → Event} {lines : List Line} {event : Event}
    (member : event ∈ lines.flatMap (Line.events make))
    : ∃ content, event = make content := by
  obtain ⟨line, _, inside⟩ := List.mem_flatMap.mp member
  exact mem_lineEvents inside

theorem inOrder_code (lines : List Line) : InOrder (lines.flatMap (Line.events .text)) := by
  refine inOrder_of_leaves (fun event member => ?_) fun event member content => ?_
  · obtain ⟨_, rfl⟩ := made_of_mem_lines member
    rfl
  · obtain ⟨_, rfl⟩ := made_of_mem_lines member
    exact Event.noConfusion

/-- A block of raw markup holds nothing else. -/
theorem inOrder_html (lines : List Line)
    : InOrder (Tag.htmlBlock.around (lines.flatMap (Line.events .html))) := by
  have alone : ∀ event ∈ lines.flatMap (Line.events .html), event.isLeaf = true := by
    intro event member
    obtain ⟨_, rfl⟩ := made_of_mem_lines member
    rfl
  obtain ⟨elements, same, leaves⟩ := exists_leaves alone
  refine ⟨[.container .htmlBlock elements], ?_, fun element member => ?_, trivial⟩
  · rw [Element.eventsAll, Element.eventsAll, List.append_nil, Element.events, same]
  · obtain ⟨event, single, rfl, among⟩ := leaves element member
    obtain ⟨_, rfl⟩ := made_of_mem_lines among
    trivial

/-- The element of a cell of a table. -/
def cellElement (refs : References) (source : List Char) : Element :=
  .container .tableCell (Inline.elements (Inline.ofText refs source))

theorem events_cellElement (refs : References) (source : List Char)
    : (cellElement refs source).events = Block.cellEvents refs source := by
  rw [cellElement, Element.events, Inline.eventsAll_elements]
  rfl

/-- The cells of a part of a table. -/
theorem events_cells (refs : References) (tag : Tag) (cells : List (List Char))
    : (Element.container tag (cells.map (cellElement refs))).events
      = tag.around (cells.flatMap (Block.cellEvents refs)) := by
  rw [Element.events, Element.eventsAll_map (events_cellElement refs)]

/-- A table begins with its head, which has a cell for each column. -/
theorem inOrder_table (refs : References) {alignments : List ColumnAlignment}
    {head : List (List Char)} (count : head.length = alignments.length)
    (rows : List (List (List Char)))
    : InOrder (Block.events refs (.table alignments head rows)) := by
  have orderly (cells : List (List Char)) : OrderlyAll (cells.map (cellElement refs)) := by
    refine orderlyAll_iff.mpr fun element member => ?_
    obtain ⟨source, _, rfl⟩ := List.mem_map.mp member
    exact (orderly_elements _).1
  refine ⟨[.container (.table alignments)
    (.container .tableHead (head.map (cellElement refs))
      :: rows.map fun row => .container .tableRow (row.map (cellElement refs)))],
    ?_, ⟨⟨_, _, rfl, ?_, fun cell member => ?_⟩, orderly head, ?_⟩, trivial⟩
  · rw [Element.eventsAll, Element.eventsAll, List.append_nil, Element.events, Element.eventsAll,
      Element.eventsAll_map fun row => events_cells refs .tableRow row, events_cells]
    rfl
  · rw [List.length_map, count]
  · obtain ⟨source, _, rfl⟩ := List.mem_map.mp member
    exact ⟨_, rfl, (orderly_elements _).2⟩
  · refine orderlyAll_iff.mpr fun element member => ?_
    obtain ⟨row, _, rfl⟩ := List.mem_map.mp member
    exact orderly row

mutual

theorem inOrder_block (refs : References)
    : ∀ block : Block, block.Regular → InOrder (block.events refs)
  | .paragraph tight box source, _ => by
      have marked : InOrder ((match box with
          | some checked => [Event.taskMarker checked]
          | none => []) ++ Inline.eventsAll (Inline.ofText refs source)) := by
        refine InOrder.append ?_ (inOrder_inline _)
        cases box with
        | none => exact inOrder_nil
        | some checked => exact inOrder_leaf rfl fun _ => Event.noConfusion
      cases tight with
      | true => cases box <;> exact marked
      | false => cases box <;> exact marked.around .paragraph fun _ orderly => orderly
  | .heading level _ _, bounds =>
      (inOrder_inline _).around (.heading level none [] []) fun _ orderly => ⟨bounds, orderly⟩
  | .rule, _ => inOrder_leaf rfl fun _ => Event.noConfusion
  | .code kind lines, _ => (inOrder_code lines).around (.codeBlock kind) fun _ orderly => orderly
  | .html lines, _ => inOrder_html lines
  | .table _ _ rows, count => inOrder_table refs count rows
  | .title _, _ => (inOrder_inline _).around .definitionTitle fun _ orderly => orderly
  | .task _, _ => inOrder_leaf rfl fun _ => Event.noConfusion
  | .container tag body, ⟨holds, inside⟩ => by
      refine (inOrder_blocks refs body inside).around tag fun inner orderly => ?_
      cases tag with
      | blockQuote | list | item | footnoteDefinition | definitionList | definitionDetails =>
          exact orderly
      | _ => cases holds

/-- Regular blocks have events in good order. -/
theorem inOrder_blocks (refs : References)
    : ∀ blocks : List Block, Block.RegularAll blocks → InOrder (Block.eventsAll refs blocks)
  | [], _ => inOrder_nil
  | block :: rest, ⟨own, others⟩ =>
      (inOrder_block refs block own).append (inOrder_blocks refs rest others)

end

/-- The events of any text are in good order. -/
theorem inOrder_events (markdown : String) : InOrder (Markdown.events markdown) :=
  inOrder_blocks _ _ (regularAll_ofText markdown.toList)

-----------------------------------------------------------------------------------------
-- The trees of texts
-----------------------------------------------------------------------------------------

/-- A node that is no heading and is replayed with what is below it is well-formed if that is. -/
theorem wellFormed_of_open {node : Node} (replayed : node.kind.isClosed = false)
    (plain : ∀ level, node.kind ≠ .heading level) (below : Node.WellFormedAll node.children)
    : node.WellFormed := by
  obtain ⟨kind, text, attrs, children⟩ := node
  exact ⟨fun closed => absurd (replayed.symm.trans closed) Bool.noConfusion,
    fun level same => absurd same (plain level), below⟩

/-- A node that is no heading and has nothing below it is well-formed. -/
theorem wellFormed_of_bare {node : Node} (bare : node.children = [])
    (plain : ∀ level, node.kind ≠ .heading level)
    : node.WellFormed := by
  obtain ⟨kind, text, attrs, children⟩ := node
  cases bare
  exact ⟨fun _ => List.forall_mem_nil _, fun level same => absurd same (plain level), trivial⟩

/-- Lines of raw markup become nodes of raw markup. -/
theorem raw_nodesOf {elements : List Element} (markup : ∀ element ∈ elements, IsMarkup element)
    (c : Columns)
    : ∀ node ∈ (nodesOf c elements).1, node.kind = .rawHtml ∧ node.children = [] := by
  induction elements generalizing c with
  | nil => exact List.forall_mem_nil _
  | cons element rest ih =>
      obtain ⟨own, others⟩ := List.forall_mem_cons.mp markup
      refine List.forall_mem_cons.mpr ⟨?_, ih others _⟩
      cases element with
      | container => exact absurd own id
      | leaf event alone =>
          cases event with
          | html content => exact ⟨rfl, rfl⟩
          | _ => exact absurd own id

/-- Raw markup is well-formed. -/
theorem wellFormedAll_of_raw {nodes : List Node}
    (raw : ∀ node ∈ nodes, node.kind = .rawHtml ∧ node.children = [])
    : Node.WellFormedAll nodes := by
  induction nodes with
  | nil => trivial
  | cons node rest ih =>
      obtain ⟨⟨own, bare⟩, others⟩ := List.forall_mem_cons.mp raw
      obtain ⟨kind, text, attrs, children⟩ := node
      cases own
      cases bare
      exact ⟨wellFormed_of_bare rfl fun _ => Kind.noConfusion, ih others⟩

/-- A container in good order becomes a well-formed node. -/
theorem wellFormed_folded {c : Columns} {tag : Tag} {inner : List Element} {nodes : List Node}
    (orderly : Orderly (.container tag inner))
    (raw
      : (∀ element ∈ inner, IsMarkup element) →
          ∀ node ∈ nodes, node.kind = .rawHtml ∧ node.children = [])
    (below : OrderlyAll inner → Node.WellFormedAll nodes)
    : (Builder.folded { c.opened tag with children := nodes }).WellFormed := by
  cases tag with
  | htmlBlock =>
      exact ⟨fun _ => raw orderly, fun _ => Kind.noConfusion, wellFormedAll_of_raw (raw orderly)⟩
  | heading level id classes attrs =>
      refine ⟨fun closed => absurd closed Bool.noConfusion, fun other same => ?_, below orderly.2⟩
      cases same
      exact orderly.1
  | table => exact wellFormed_of_open rfl (fun _ => Kind.noConfusion) (below orderly.2)
  | image => exact wellFormed_of_bare rfl fun _ => Kind.noConfusion
  | codeBlock kind =>
      cases kind with
      | indented => exact wellFormed_of_open rfl (fun _ => Kind.noConfusion) (below orderly)
      | fenced info =>
          simp only [Columns.opened, Builder.start]
          split <;> exact wellFormed_of_open rfl (fun _ => Kind.noConfusion) (below orderly)
  | _ => exact wellFormed_of_open rfl (fun _ => Kind.noConfusion) (below orderly)

theorem wellFormed_leafOf {event : Event} (alone : event.isLeaf = true)
    : (leafOf event).WellFormed := by
  cases event with
  | start => cases alone
  | stop => cases alone
  | _ => exact wellFormed_of_bare rfl fun _ => Kind.noConfusion

mutual

/-- The node of an element in good order is well-formed. -/
theorem wellFormed_nodeOf : ∀ (element : Element) (c : Columns),
    Orderly element → (nodeOf c element).1.WellFormed
  | .leaf _ alone, _, _ => wellFormed_leafOf alone
  | .container _ inner, _, orderly =>
      wellFormed_folded orderly (fun markup => raw_nodesOf markup _)
        fun within => wellFormed_nodesOf inner _ within

theorem wellFormed_nodesOf : ∀ (elements : List Element) (c : Columns),
    OrderlyAll elements → Node.WellFormedAll (nodesOf c elements).1
  | [], _, _ => trivial
  | element :: rest, c, ⟨own, others⟩ =>
      ⟨wellFormed_nodeOf element c own, wellFormed_nodesOf rest _ others⟩

end

theorem kind_parse (markdown : String) : (parse markdown).kind = .document := by
  obtain ⟨elements, same, _⟩ := inOrder_events markdown
  rw [parse, ← same, ofEvents_eventsAll]

/-- The tree of any text is well-formed. -/
theorem wellFormed_parse (markdown : String) : (parse markdown).WellFormed := by
  obtain ⟨elements, same, orderly⟩ := inOrder_events markdown
  rw [parse, ← same, ofEvents_eventsAll]
  exact wellFormed_of_open rfl (fun _ => Kind.noConfusion) (wellFormed_nodesOf elements _ orderly)

end Publication.Document
