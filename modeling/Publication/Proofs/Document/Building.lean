import Publication.Document.OfEvents
import Publication.Proofs.Markdown.Nesting

/-! The nodes of events that are well-nested. There is one for each element of their forest; only
the columns of tables are carried on from one element to the next.
-/

namespace Publication.Document

open Publication.Markdown

-----------------------------------------------------------------------------------------
-- The nodes of elements
-----------------------------------------------------------------------------------------

/-- What a builder knows of the columns of a table. -/
structure Columns where
  alignments : List ColumnAlignment
  /-- The column of the next cell. -/
  next : Nat

def Builder.columns (b : Builder) : Columns := ⟨b.alignments, b.column⟩

def Builder.withColumns (b : Builder) (c : Columns) : Builder :=
  { b with alignments := c.alignments, column := c.next }

/-- A builder with nothing but columns. -/
def Columns.builder (c : Columns) : Builder := ({} : Builder).withColumns c

/-- The node that a tag opens. -/
def Columns.opened (c : Columns) (tag : Tag) : Node :=
  (c.builder.start tag).inner.headD { kind := .document }

/-- The columns behind the start of a container. -/
def Columns.behind (c : Columns) (tag : Tag) : Columns := (c.builder.start tag).columns

/-- The node of an event that stands alone. -/
def leafOf (event : Event) : Node :=
  (({} : Builder).step event).document.children.headD { kind := .document }

mutual

/-- The node of an element, and the columns behind it. -/
def nodeOf (c : Columns) : Element → Node × Columns
  | .leaf event _ => (leafOf event, c)
  | .container tag inner =>
      let (nodes, after) := nodesOf (c.behind tag) inner
      (Builder.folded { c.opened tag with children := nodes }, after)

/-- The nodes of elements in order, and the columns behind them. -/
def nodesOf (c : Columns) : List Element → List Node × Columns
  | [] => ([], c)
  | element :: rest =>
      let (node, middle) := nodeOf c element
      let (nodes, after) := nodesOf middle rest
      (node :: nodes, after)

end

/-- Adds children in order. -/
def Node.addChildren (node : Node) (nodes : List Node) : Node :=
  { node with children := node.children ++ nodes }

@[simp] theorem Node.addChildren_nil (node : Node) : node.addChildren [] = node := by
  cases node
  simp [addChildren]

@[simp] theorem Node.addChildren_addChild (node child : Node) (nodes : List Node)
    : (node.addChild child).addChildren nodes = node.addChildren (child :: nodes) := by
  simp [addChildren, addChild]

namespace Builder

/-- Adds nodes in order. -/
def addAll (b : Builder) (nodes : List Node) : Builder := nodes.foldl add b

@[simp] theorem columns_withColumns (b : Builder) (c : Columns)
    : (b.withColumns c).columns = c := rfl

@[simp] theorem withColumns_columns (b : Builder) : b.withColumns b.columns = b := rfl

@[simp] theorem withColumns_withColumns (b : Builder) (c d : Columns)
    : (b.withColumns c).withColumns d = b.withColumns d := rfl

theorem withColumns_add (b : Builder) (c : Columns) (node : Node)
    : (b.withColumns c).add node = (b.add node).withColumns c := by
  cases inside : b.inner <;> simp [add, withColumns, inside]

@[simp] theorem columns_add (b : Builder) (node : Node) : (b.add node).columns = b.columns := by
  cases inside : b.inner <;> simp [add, columns, inside]

theorem withColumns_addAll (b : Builder) (c : Columns) (nodes : List Node)
    : (b.withColumns c).addAll nodes = (b.addAll nodes).withColumns c := by
  induction nodes generalizing b with
  | nil => rfl
  | cons first rest ih =>
      rw [addAll, List.foldl_cons, withColumns_add]
      exact ih (b.add first)

/-- Nodes go into the container opened last, by induction on them. -/
theorem push_addAll (b : Builder) (node : Node) (nodes : List Node)
    : (b.push node).addAll nodes = b.push (node.addChildren nodes) := by
  induction nodes generalizing node with
  | nil => rw [Node.addChildren_nil]; rfl
  | cons first rest ih =>
      rw [← Node.addChildren_addChild]
      exact ih (node.addChild first)

/-- Where no container is open, nodes go into the document. -/
theorem addAll_of_inner (b : Builder) (outermost : b.inner = []) (nodes : List Node)
    : b.addAll nodes = { b with document := b.document.addChildren nodes } := by
  induction nodes generalizing b with
  | nil => rw [Node.addChildren_nil]; rfl
  | cons first rest ih =>
      have one : b.add first = { b with document := b.document.addChild first } := by
        simp [add, outermost]
      have others := ih (b.add first) (by rw [one]; exact outermost)
      rw [one, Node.addChildren_addChild] at others
      rw [← others, ← one]
      rfl

theorem step_leaf {event : Event} (alone : event.isLeaf = true) (b : Builder)
    : b.step event = b.add (leafOf event) := by
  cases event with
  | start => cases alone
  | stop => cases alone
  | _ => rfl

/-- A tag opens one node, and moves on the columns. -/
theorem start_eq (b : Builder) (tag : Tag)
    : b.start tag = (b.push (b.columns.opened tag)).withColumns (b.columns.behind tag) := by
  cases tag with
  | codeBlock kind =>
      cases kind with
      | indented => rfl
      | fenced info =>
          simp only [Columns.opened, Columns.behind, start]
          split <;> rfl
  | _ => rfl

theorem children_opened (c : Columns) (tag : Tag) : (c.opened tag).children = [] := by
  cases tag with
  | codeBlock kind =>
      cases kind with
      | indented => rfl
      | fenced info =>
          simp only [Columns.opened, start]
          split <;> rfl
  | _ => rfl

mutual

/-- The events of an element add its node to the container opened last. -/
theorem foldl_events : ∀ (element : Element) (b : Builder),
    element.events.foldl step b
      = (b.add (nodeOf b.columns element).1).withColumns (nodeOf b.columns element).2
  | .leaf event alone, b => by
      simp only [Element.events, List.foldl_cons, List.foldl_nil, step_leaf alone, nodeOf]
      rw [← columns_add b (leafOf event), withColumns_columns]
  | .container tag inner, b => by
      have inside := foldl_eventsAll inner (b.start tag)
      simp only [start_eq, columns_withColumns, withColumns_addAll, withColumns_withColumns,
        push_addAll, Node.addChildren, children_opened, List.nil_append] at inside
      simp only [Element.events, Tag.around, List.cons_append, List.foldl_cons, List.foldl_append,
        List.foldl_nil, step, start_eq, inside, nodeOf]
      exact withColumns_add b _ _

/-- The events of a forest add its nodes to the container opened last. -/
theorem foldl_eventsAll : ∀ (elements : List Element) (b : Builder),
    (Element.eventsAll elements).foldl step b
      = (b.addAll (nodesOf b.columns elements).1).withColumns (nodesOf b.columns elements).2
  | [], b => rfl
  | element :: rest, b => by
      rw [Element.eventsAll, List.foldl_append, foldl_events element b, foldl_eventsAll rest,
        columns_withColumns, withColumns_addAll, withColumns_withColumns]
      rfl

end

end Builder

/-- The tree of the events of a forest is that of its nodes. -/
theorem ofEvents_eventsAll (elements : List Element)
    : ofEvents (Element.eventsAll elements)
      = { kind := .document, children := (nodesOf ⟨[], 0⟩ elements).1 } := by
  rw [ofEvents, Builder.foldl_eventsAll, Builder.addAll_of_inner {} rfl]
  rfl

end Publication.Document
