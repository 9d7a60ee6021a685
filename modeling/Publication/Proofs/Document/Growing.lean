import Publication.Proofs.Document.Building
import Publication.Proofs.Markdown.Imageless

/-! Trees that grow. While a container is open it gains children and nothing else, so what each node
has when it is complete is had throughout the tree that events build, well-nested or not. So nothing
stands below a leaf of the tree, only leaves that stand for text hold one, and a node is an image
only where an event begins one.
-/

namespace Publication.Document

open Publication.Markdown

namespace Node

-----------------------------------------------------------------------------------------
-- What is had throughout a tree
-----------------------------------------------------------------------------------------

theorem mem_preorderAll_iff {inner : Node} {nodes : List Node}
    : inner ∈ preorderAll nodes ↔ ∃ node ∈ nodes, inner ∈ node.preorder := by
  induction nodes with
  | nil => simp [preorderAll]
  | cons node rest ih => simp [preorderAll, ih]

/-- A property that a node has, and all nodes below it. -/
def Throughout (holds : Node → Prop) (node : Node) : Prop := ∀ inner ∈ node.preorder, holds inner

theorem throughout_iff {holds : Node → Prop} {node : Node}
    : node.Throughout holds
      ↔ holds node ∧ ∀ child ∈ node.children, child.Throughout holds := by
  obtain ⟨kind, text, attrs, children⟩ := node
  simp only [Throughout, preorder, List.forall_mem_cons, mem_preorderAll_iff]
  constructor
  · rintro ⟨own, below⟩
    exact ⟨own, fun child member inner inside => below inner ⟨child, member, inside⟩⟩
  · rintro ⟨own, below⟩
    refine ⟨own, ?_⟩
    rintro inner ⟨child, member, inside⟩
    exact below child member inner inside

mutual

theorem Throughout.of_mem {holds : Node → Prop} {inner : Node}
    : ∀ node : Node, node.Throughout holds → inner ∈ node.preorder → inner.Throughout holds
  | ⟨kind, text, attrs, children⟩, held, member => by
      rcases List.mem_cons.mp member with rfl | below
      · exact held
      · exact Throughout.of_mem_all children (throughout_iff.mp held).2 below

/-- What is had throughout a tree is had throughout the tree below each of its nodes. -/
theorem Throughout.of_mem_all {holds : Node → Prop} {inner : Node}
    : ∀ nodes : List Node,
        (∀ node ∈ nodes, node.Throughout holds) → inner ∈ preorderAll nodes →
          inner.Throughout holds
  | [], _, member => nomatch member
  | node :: rest, held, member => by
      obtain ⟨first, others⟩ := List.forall_mem_cons.mp held
      rcases List.mem_append.mp member with inside | later
      · exact Throughout.of_mem node first inside
      · exact Throughout.of_mem_all rest others later

end

/-- The children of a node below which all nodes have a property. -/
theorem forall_mem_addChild {holds : Node → Prop} {node child : Node}
    (below : ∀ inner ∈ node.children, inner.Throughout holds) (added : child.Throughout holds)
    : ∀ inner ∈ (node.addChild child).children, inner.Throughout holds :=
  List.forall_mem_append.mpr ⟨below, List.forall_mem_singleton.mpr added⟩

end Node

theorem children_leafOf {event : Event} (alone : event.isLeaf = true)
    : (leafOf event).children = [] := by
  cases event with
  | start => cases alone
  | stop => cases alone
  | _ => rfl

-----------------------------------------------------------------------------------------
-- Building
-----------------------------------------------------------------------------------------

namespace Builder

/-- What an open container has, whatever it gains, and what a container has when it is closed. -/
structure Closes (begun complete : Node → Prop) : Prop where
  grows : ∀ node child, begun node → begun (node.addChild child)
  closes : ∀ node, begun node → complete (folded node)

/-- What an open container has, whatever it gains, and what a node has when it is complete. A closed
container is complete, and so is the document.
-/
structure Ripens (begun complete : Node → Prop) : Prop extends Closes begun complete where
  root : ∀ children, complete { kind := .document, children := children }

/-- A tree under construction in which each node has what it is to have. -/
structure Sound (begun complete : Node → Prop) (b : Builder) : Prop where
  document
    : ∃ children,
        b.document = { kind := .document, children := children }
        ∧ ∀ child ∈ children, child.Throughout complete
  inner
    : ∀ node ∈ b.inner, begun node ∧ ∀ child ∈ node.children, child.Throughout complete

section

variable {begun complete : Node → Prop} {b : Builder} {node : Node}

/-- Nothing but the alternative text is left of what an image encloses. -/
theorem Closes.throughout_folded (closing : Closes begun complete) (own : begun node)
    (below : ∀ child ∈ node.children, child.Throughout complete)
    : (folded node).Throughout complete := by
  refine Node.throughout_iff.mpr ⟨closing.closes node own, ?_⟩
  rw [folded]
  split
  · exact List.forall_mem_nil _
  · exact below

theorem Sound.add (sound : b.Sound begun complete) (closing : Closes begun complete)
    (added : node.Throughout complete)
    : (b.add node).Sound begun complete := by
  obtain ⟨⟨children, root, below⟩, inner⟩ := sound
  simp only [Builder.add]
  split
  next outermost =>
      refine ⟨⟨children ++ [node], by rw [root]; rfl, ?_⟩, outermost ▸ inner⟩
      exact List.forall_mem_append.mpr ⟨below, List.forall_mem_singleton.mpr added⟩
  next parent outer opened =>
      rw [opened] at inner
      obtain ⟨⟨own, inside⟩, others⟩ := List.forall_mem_cons.mp inner
      refine ⟨⟨children, root, below⟩, List.forall_mem_cons.mpr ⟨⟨?_, ?_⟩, others⟩⟩
      · exact closing.grows parent node own
      · exact Node.forall_mem_addChild inside added

theorem Sound.stop (sound : b.Sound begun complete) (closing : Closes begun complete)
    : b.stop.Sound begun complete := by
  simp only [Builder.stop]
  split
  · exact sound
  next node outer opened =>
      obtain ⟨document, inner⟩ := sound
      rw [opened] at inner
      obtain ⟨⟨own, below⟩, others⟩ := List.forall_mem_cons.mp inner
      have rest : Sound begun complete { b with inner := outer } := ⟨document, others⟩
      exact rest.add closing (closing.throughout_folded own below)

theorem Sound.push (sound : b.Sound begun complete) (own : begun node)
    (below : ∀ child ∈ node.children, child.Throughout complete)
    : (b.push node).Sound begun complete :=
  ⟨sound.document, List.forall_mem_cons.mpr ⟨⟨own, below⟩, sound.inner⟩⟩

/-- One event keeps what each node has, if what it begins or adds has it. -/
theorem Sound.step (sound : b.Sound begun complete) (closing : Closes begun complete)
    {event : Event} (opens : ∀ tag (c : Columns), event = .start tag → begun (c.opened tag))
    (adds : event.isLeaf = true → complete (leafOf event))
    : (b.step event).Sound begun complete := by
  by_cases alone : event.isLeaf = true
  · rw [step_leaf alone]
    refine sound.add closing (Node.throughout_iff.mpr ⟨adds alone, ?_⟩)
    rw [children_leafOf alone]
    exact List.forall_mem_nil _
  · cases event with
    | start tag =>
        have bare : ∀ child ∈ (b.columns.opened tag).children, child.Throughout complete := by
          rw [children_opened]
          exact List.forall_mem_nil _
        have pushed := sound.push (opens tag b.columns rfl) bare
        rw [Builder.step, start_eq]
        exact ⟨pushed.document, pushed.inner⟩
    | stop tag => exact sound.stop closing
    | _ => exact absurd rfl alone

/-- To close the innermost container first makes no difference to the finished tree. -/
theorem finish_stop (b : Builder) : b.stop.finish = b.finish := by
  obtain ⟨document, inner, alignments, column⟩ := b
  rcases inner with _ | ⟨node, _ | ⟨parent, outer⟩⟩ <;> rfl

theorem length_inner_stop (b : Builder) : b.stop.inner.length = b.inner.length - 1 := by
  obtain ⟨document, inner, alignments, column⟩ := b
  rcases inner with _ | ⟨node, _ | ⟨parent, outer⟩⟩ <;> rfl

/-- The finished tree is a document in which each node has what it is to have, by induction on the
number of containers left open.
-/
theorem Sound.exists_finish (sound : b.Sound begun complete) (closing : Closes begun complete)
    : ∃ children,
        b.finish = { kind := .document, children := children }
        ∧ ∀ child ∈ children, child.Throughout complete := by
  induction left : b.inner.length generalizing b with
  | zero =>
      have outermost : b.inner = [] := List.eq_nil_of_length_eq_zero left
      simp only [finish, outermost]
      exact sound.document
  | succ count ih =>
      rw [← finish_stop]
      exact ih (sound.stop closing) (by rw [length_inner_stop, left, Nat.add_sub_cancel])

theorem Sound.throughout_finish (sound : b.Sound begun complete) (ripens : Ripens begun complete)
    : b.finish.Throughout complete := by
  obtain ⟨children, root, below⟩ := sound.exists_finish ripens.toCloses
  rw [root]
  exact Node.throughout_iff.mpr ⟨ripens.root children, below⟩

end

end Builder

/-- What is begun and added by events with some property has it throughout their tree, by induction
on the events.
-/
theorem throughout_ofEvents {begun complete : Node → Prop} (ripens : Builder.Ripens begun complete)
    {events : List Event}
    (opens : ∀ tag (c : Columns), Event.start tag ∈ events → begun (c.opened tag))
    (adds : ∀ event ∈ events, event.isLeaf = true → complete (leafOf event))
    : (ofEvents events).Throughout complete := by
  have built (b : Builder) (sound : b.Sound begun complete)
      : (events.foldl Builder.step b).Sound begun complete := by
    induction events generalizing b with
    | nil => exact sound
    | cons event rest ih =>
        have first := sound.step ripens.toCloses
          (fun tag c same => opens tag c (same ▸ List.mem_cons_self))
          (adds event List.mem_cons_self)
        exact ih (fun tag c member => opens tag c (List.mem_cons_of_mem _ member))
          (fun other member => adds other (List.mem_cons_of_mem _ member)) _ first
  have empty : ({} : Builder).Sound begun complete :=
    ⟨⟨[], rfl, List.forall_mem_nil _⟩, List.forall_mem_nil _⟩
  exact (built {} empty).throughout_finish ripens

-----------------------------------------------------------------------------------------
-- Shapes of nodes
-----------------------------------------------------------------------------------------

/-- The kinds of nodes that nothing stands below: leaves, and images, which fold what they enclose
into their alternative text.
-/
def Kind.isBare : Kind → Bool
  | .text | .code | .rawHtml | .formula _ | .footnoteReference => true
  | .softBreak | .hardBreak | .rule | .taskMarker _ | .image => true
  | _ => false

/-- The kinds of nodes that hold a text. -/
def Kind.isLettered : Kind → Bool
  | .text | .code | .rawHtml | .formula _ | .footnoteReference => true
  | _ => false

/-- A node with nothing below it if it is a leaf, and with no text unless it stands for one. -/
structure Node.Shaped (node : Node) : Prop where
  bare : node.kind.isBare = true → node.children = []
  silent : node.kind.isLettered = false → node.text = none

/-- A container that is open: it holds no text, and is no leaf. -/
structure Node.Open (node : Node) : Prop where
  holds : node.kind.isBare = true → node.kind = .image
  silent : node.text = none

theorem Builder.ripens_shaped : Ripens Node.Open Node.Shaped where
  grows _ _ own := ⟨own.holds, own.silent⟩
  closes node own := by
    rw [folded]
    split
    next => exact ⟨fun _ => rfl, fun _ => own.silent⟩
    next other => exact ⟨fun bare => absurd (own.holds bare) other, fun _ => own.silent⟩
  root _ := ⟨nofun, fun _ => rfl⟩

theorem open_opened (tag : Tag) (c : Columns) : (c.opened tag).Open := by
  cases tag with
  | image => exact ⟨fun _ => rfl, rfl⟩
  | codeBlock kind =>
      cases kind with
      | indented => exact ⟨fun bare => absurd bare Bool.false_ne_true, rfl⟩
      | fenced info =>
          simp only [Columns.opened, Builder.start]
          split <;> exact ⟨fun bare => absurd bare Bool.false_ne_true, rfl⟩
  | _ => exact ⟨fun bare => absurd bare Bool.false_ne_true, rfl⟩

theorem shaped_leafOf {event : Event} (alone : event.isLeaf = true) : (leafOf event).Shaped := by
  cases event with
  | start => cases alone
  | stop => cases alone
  | softBreak | hardBreak | rule | taskMarker => exact ⟨fun _ => rfl, fun _ => rfl⟩
  | _ => exact ⟨fun _ => rfl, nofun⟩

/-- Nothing stands below a leaf, and only leaves hold texts, in the tree of any events. -/
theorem shaped_ofEvents (events : List Event) : (ofEvents events).Throughout Node.Shaped :=
  throughout_ofEvents Builder.ripens_shaped (fun tag c _ => open_opened tag c)
    fun _ _ alone => shaped_leafOf alone

-----------------------------------------------------------------------------------------
-- Walks
-----------------------------------------------------------------------------------------

namespace Node

/-- The visitor that collects the nodes that satisfy a test. -/
def collect (test : Node → Bool) (found : List Node) (node : Node) : List Node × Bool :=
  (if test node then found ++ [node] else found, true)

section

variable (test : Node → Bool)

mutual

theorem walk_collect : ∀ (node : Node) (found : List Node),
    node.walk (collect test) found = (found ++ node.preorder.filter test, true)
  | ⟨kind, text, attrs, children⟩, found => by
      simp only [walk, preorder, collect, walkAll_collect children, List.filter_cons]
      split <;> simp

theorem walkAll_collect : ∀ (nodes : List Node) (found : List Node),
    walkAll (collect test) found nodes = (found ++ (preorderAll nodes).filter test, true)
  | [], found => by simp [walkAll, preorderAll]
  | node :: rest, found => by
      simp [walkAll, preorderAll, walk_collect node, walkAll_collect rest]

end

/-- A walk finds the nodes in the order in which they are met. -/
theorem findAll_eq_filter (node : Node) : node.findAll test = node.preorder.filter test :=
  congrArg Prod.fst (walk_collect test node [])

end

end Node

-----------------------------------------------------------------------------------------
-- Trees without images
-----------------------------------------------------------------------------------------

/-- Neither a node nor one below it is an image. -/
def Node.Imageless (node : Node) : Prop := ∀ inner ∈ node.preorder, inner.kind ≠ .image

namespace Builder

theorem folded_of_ne_image {node : Node} (other : node.kind ≠ .image) : folded node = node :=
  if_neg other

/-- What was no image when it was begun is none when it is closed. -/
theorem ripens_imageless : Ripens (·.kind ≠ .image) (·.kind ≠ .image) where
  grows _ _ other := other
  closes node other := by
    rw [folded_of_ne_image other]
    exact other
  root _ := Kind.noConfusion

theorem kind_opened_ne_image (c : Columns) {tag : Tag}
    (other : (Event.start tag).beginsImage = false)
    : (c.opened tag).kind ≠ .image := by
  cases tag with
  | image => cases other
  | codeBlock kind =>
      cases kind with
      | indented => exact Kind.noConfusion
      | fenced info =>
          simp only [Columns.opened, start]
          split <;> exact Kind.noConfusion
  | _ => exact Kind.noConfusion

theorem kind_leafOf_ne_image {event : Event} (alone : event.isLeaf = true)
    : (leafOf event).kind ≠ .image := by
  cases event with
  | start => cases alone
  | stop => cases alone
  | _ => exact Kind.noConfusion

end Builder

/-- A tree has no image where no event begins one. -/
theorem imageless_ofEvents {events : List Event} (imageless : Markdown.Imageless events)
    : (ofEvents events).Imageless :=
  throughout_ofEvents Builder.ripens_imageless
    (fun _ c member => Builder.kind_opened_ne_image c (imageless _ member))
    fun _ _ alone => Builder.kind_leafOf_ne_image alone

theorem Node.Imageless.findAll_eq_nil {node : Node} (imageless : node.Imageless)
    : node.findAll (·.kind = .image) = [] := by
  rw [findAll_eq_filter, List.filter_eq_nil_iff]
  intro inner member
  simpa using imageless inner member

end Publication.Document
