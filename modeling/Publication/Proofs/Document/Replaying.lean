import Publication.Document.Replay

/-! What is begun when a tree is replayed. In a well-formed tree each node that stands for a
container is met, in the order of the tree, so questions about the events are asked of the nodes.
-/

namespace Publication

open Publication.Markdown

/-- The container that an event begins. -/
def Markdown.Event.opened? : Event → Option Tag
  | .start tag => some tag
  | _ => none

namespace Document

/-- The kinds of nodes that are replayed without the nodes below them. -/
def Kind.isClosed : Kind → Bool
  | .rule | .text | .code | .rawHtml | .formula _ | .footnoteReference | .taskMarker _ => true
  | .softBreak | .hardBreak => true
  | .image | .htmlBlock => true
  | _ => false

namespace Node

mutual

/-- Whether headings have a level from one to six, and nothing but raw markup is below the nodes
that are replayed without what is below them.
-/
def WellFormed : Node → Prop
  | ⟨kind, _, _, children⟩ =>
      (kind.isClosed = true → ∀ child ∈ children, child.kind = .rawHtml ∧ child.children = [])
      ∧ (∀ level, kind = .heading level → 1 ≤ level ∧ level ≤ 6)
      ∧ WellFormedAll children

def WellFormedAll : List Node → Prop
  | [] => True
  | node :: rest => WellFormed node ∧ WellFormedAll rest

end

/-- The container that a node is replayed as. A document and a span are replayed as what is in
them.
-/
def opening? (node : Node) : Option Tag :=
  match node.kind with
  | .document | .span => none
  | _ => node.events.head?.bind Event.opened?

theorem opening?_of_rawHtml {node : Node} (raw : node.kind = .rawHtml) : node.opening? = none := by
  obtain ⟨kind, text, attrs, children⟩ := node
  cases raw
  rfl

/-- Nothing is begun by raw markup. -/
theorem openings_of_rawHtml {nodes : List Node}
    (raw : ∀ node ∈ nodes, node.kind = .rawHtml ∧ node.children = [])
    : (preorderAll nodes).filterMap opening? = [] := by
  induction nodes with
  | nil => rfl
  | cons node rest ih =>
      obtain ⟨⟨own, bare⟩, others⟩ := List.forall_mem_cons.mp raw
      have alone : node.preorder = [node] := by
        obtain ⟨kind, text, attrs, children⟩ := node
        cases bare
        rfl
      rw [preorderAll, alone, List.singleton_append, List.filterMap_cons, opening?_of_rawHtml own]
      exact ih others

/-- The lines of raw markup begin nothing. -/
theorem openings_lines (children : List Node)
    : (children.map fun child => Event.html child.textOr).filterMap Event.opened? = [] := by
  rw [List.filterMap_map, List.filterMap_eq_nil_iff]
  exact fun _ _ => rfl

theorem openings_around (tag : Tag) (events : List Event)
    : (tag.around events).filterMap Event.opened? = tag :: events.filterMap Event.opened? := by
  simp [Tag.around, Event.opened?]

mutual

/-- A node is replayed as the containers that the nodes below it are replayed as. -/
theorem openings_events : ∀ node : Node, node.WellFormed →
    node.events.filterMap Event.opened? = node.preorder.filterMap opening?
  | ⟨kind, text, attrs, children⟩, ⟨closed, _, below⟩ => by
      have inside := openings_eventsAll children below
      have raw (own : kind.isClosed = true) := openings_of_rawHtml (closed own)
      cases kind with
      | image =>
          have none : (preorderAll children).filterMap opening? = [] := raw rfl
          simp only [events, preorder, List.filterMap_cons, none, openings_around]
          split <;> rfl
      | htmlBlock =>
          have none : (preorderAll children).filterMap opening? = [] := raw rfl
          simp only [events, preorder, List.filterMap_cons, none, openings_around, openings_lines]
          rfl
      | rule | text | code | rawHtml | formula | footnoteReference | taskMarker | softBreak
        | hardBreak =>
          have none : (preorderAll children).filterMap opening? = [] := raw rfl
          simp only [events, preorder, List.filterMap_cons, none]
          rfl
      | document | span =>
          simp only [events, preorder, List.filterMap_cons, inside]
          rfl
      | _ =>
          simp only [events, preorder, List.filterMap_cons, openings_around, inside]
          rfl

/-- The nodes of a forest are replayed in order. -/
theorem openings_eventsAll : ∀ nodes : List Node, WellFormedAll nodes →
    (eventsAll nodes).filterMap Event.opened? = (preorderAll nodes).filterMap opening?
  | [], _ => rfl
  | node :: rest, ⟨own, others⟩ => by
      rw [eventsAll, preorderAll, List.filterMap_append, List.filterMap_append,
        openings_events node own, openings_eventsAll rest others]

end

theorem mem_preorder_self (node : Node) : node ∈ node.preorder := by
  obtain ⟨kind, text, attrs, children⟩ := node
  exact List.mem_cons_self

/-- What is asked of the containers that are begun is asked of the nodes. -/
theorem filterMap_events {α : Type} (pick : Tag → Option α) {node : Node}
    (formed : node.WellFormed)
    : (node.events.filterMap fun event => event.opened?.bind pick)
      = node.preorder.filterMap fun inner => inner.opening?.bind pick := by
  have openings := congrArg (List.filterMap pick) (openings_events node formed)
  rw [List.filterMap_filterMap, List.filterMap_filterMap] at openings
  exact openings

/-- A document is replayed as what is in it. -/
theorem events_of_document {node : Node} (root : node.kind = .document)
    : node.events = eventsAll node.children := by
  obtain ⟨kind, text, attrs, children⟩ := node
  cases root
  rfl

mutual

theorem WellFormed.level : ∀ node : Node, node.WellFormed →
    ∀ inner ∈ node.preorder, ∀ level, inner.kind = .heading level → 1 ≤ level ∧ level ≤ 6
  | ⟨_, _, _, children⟩, ⟨_, own, below⟩ =>
      List.forall_mem_cons.mpr ⟨own, WellFormedAll.level children below⟩

/-- Headings have a level from one to six. -/
theorem WellFormedAll.level : ∀ nodes : List Node, WellFormedAll nodes →
    ∀ inner ∈ preorderAll nodes, ∀ level, inner.kind = .heading level → 1 ≤ level ∧ level ≤ 6
  | [], _ => List.forall_mem_nil _
  | node :: rest, ⟨own, others⟩ =>
      List.forall_mem_append.mpr ⟨WellFormed.level node own, WellFormedAll.level rest others⟩

end

end Node
end Document
end Publication
