import Publication.Proofs.Document.Replaying

/-! Trees that a visitor revises. A visitor that sets attributes leaves the shape of a tree and its
texts as they are; if it records some of the nodes, its entries are those of the nodes in order.
-/

namespace Publication.Document

namespace Node

-----------------------------------------------------------------------------------------
-- Attributes
-----------------------------------------------------------------------------------------

/-- An attribute that is set has the value. -/
theorem find?_setAttrIn (key value : String) (attrs : List (String × String))
    : (setAttrIn key value attrs).find? (·.1 = key) = some (key, value) := by
  induction attrs with
  | nil => simp [setAttrIn]
  | cons attr rest ih =>
      simp only [setAttrIn]
      split
      next same => simp [same]
      next other => simp [other, ih]

theorem attr?_of_set {node revised : Node} {key value : String}
    (set : revised.attrs = setAttrIn key value node.attrs)
    : revised.attr? key = some value := by
  rw [attr?, set, find?_setAttrIn, Option.map_some]

/-- An attribute that has the value stays as it is. -/
theorem setAttrIn_setAttrIn (key value : String) (attrs : List (String × String))
    : setAttrIn key value (setAttrIn key value attrs) = setAttrIn key value attrs := by
  induction attrs with
  | nil => simp [setAttrIn]
  | cons attr rest ih =>
      by_cases same : attr.1 = key
      · simp [setAttrIn, same]
      · simp [setAttrIn, same, ih]

-----------------------------------------------------------------------------------------
-- What visitors keep
-----------------------------------------------------------------------------------------

mutual

/-- What a visitor keeps of its state is kept over a tree. -/
theorem revise_keeps {σ : Type} {visit : σ → Node → Node × σ} {holds : σ → Prop}
    (kept : ∀ state node, holds state → holds (visit state node).2)
    : ∀ (node : Node) (state : σ), holds state → holds (node.revise visit state).2
  | ⟨kind, text, attrs, children⟩, state, before => by
      simp only [revise]
      exact reviseAll_keeps kept children _ (kept state _ before)

/-- What a visitor keeps of its state is kept over a forest. -/
theorem reviseAll_keeps {σ : Type} {visit : σ → Node → Node × σ} {holds : σ → Prop}
    (kept : ∀ state node, holds state → holds (visit state node).2)
    : ∀ (nodes : List Node) (state : σ), holds state → holds (reviseAll visit state nodes).2
  | [], _, before => before
  | node :: rest, state, before => by
      simp only [reviseAll]
      exact reviseAll_keeps kept rest _ (revise_keeps kept node state before)

end

-----------------------------------------------------------------------------------------
-- Visitors that set attributes
-----------------------------------------------------------------------------------------

/-- A visitor that changes nothing of a node but its attributes. -/
def SetsAttributes {σ : Type} (visit : σ → Node → Node × σ) : Prop :=
  ∀ state node, ∃ attrs, (visit state node).1 = { node with attrs := attrs }

/-- A visitor that leaves the kinds of nodes as they are, and the texts of all but raw markup, which
is no text to read.
-/
def KeepsProse {σ : Type} (visit : σ → Node → Node × σ) : Prop :=
  ∀ state node,
    (visit state node).1.kind = node.kind
    ∧ (node.kind ≠ .rawHtml → (visit state node).1.text = node.text)

section

variable {σ : Type} {visit : σ → Node → Node × σ}

theorem SetsAttributes.kind (sets : SetsAttributes visit) (state : σ) (node : Node)
    : (visit state node).1.kind = node.kind := by
  obtain ⟨attrs, same⟩ := sets state node
  rw [same]

theorem SetsAttributes.text (sets : SetsAttributes visit) (state : σ) (node : Node)
    : (visit state node).1.text = node.text := by
  obtain ⟨attrs, same⟩ := sets state node
  rw [same]

theorem SetsAttributes.keepsProse (sets : SetsAttributes visit) : KeepsProse visit :=
  fun state node => ⟨sets.kind state node, fun _ => sets.text state node⟩

/-- The text of a node is told by its kind, its own text and those of its children. -/
theorem flatten_congr {node other : Node} (kind : other.kind = node.kind)
    (text : node.kind ≠ .rawHtml → other.text = node.text)
    (below : flattenAll other.children = flattenAll node.children)
    : other.flatten = node.flatten := by
  obtain ⟨k, t, attrs, children⟩ := node
  obtain ⟨k', t', attrs', children'⟩ := other
  dsimp only at kind text below
  subst kind
  by_cases raw : k' = .rawHtml
  · subst raw
    rfl
  · cases text raw
    cases k' <;> simp only [flatten, below]

theorem kind_revise (keeps : KeepsProse visit) (node : Node) (state : σ)
    : (node.revise visit state).1.kind = node.kind := by
  obtain ⟨kind, text, attrs, children⟩ := node
  exact (keeps state _).1

theorem length_reviseAll (state : σ) (nodes : List Node)
    : (reviseAll visit state nodes).1.length = nodes.length := by
  induction nodes generalizing state with
  | nil => rfl
  | cons node rest ih => simp only [reviseAll, List.length_cons, ih]

mutual

theorem flatten_revise (keeps : KeepsProse visit)
    : ∀ (node : Node) (state : σ), (node.revise visit state).1.flatten = node.flatten
  | ⟨_, _, _, children⟩, state =>
      flatten_congr (keeps state _).1 (keeps state _).2 (flattenAll_reviseAll keeps children _)

/-- Texts stay as they are. -/
theorem flattenAll_reviseAll (keeps : KeepsProse visit)
    : ∀ (nodes : List Node) (state : σ),
        flattenAll (reviseAll visit state nodes).1 = flattenAll nodes
  | [], _ => rfl
  | node :: rest, state => by
      simp only [reviseAll, flattenAll, flatten_revise keeps node, flattenAll_reviseAll keeps rest]

end

/-- Children that are nothing but raw markup stay so. -/
theorem raw_reviseAll (sets : SetsAttributes visit) {nodes : List Node}
    (raw : ∀ node ∈ nodes, node.kind = .rawHtml ∧ node.children = []) (state : σ)
    : ∀ node ∈ (reviseAll visit state nodes).1, node.kind = .rawHtml ∧ node.children = [] := by
  induction nodes generalizing state with
  | nil => exact List.forall_mem_nil _
  | cons node rest ih =>
      obtain ⟨⟨own, bare⟩, others⟩ := List.forall_mem_cons.mp raw
      refine List.forall_mem_cons.mpr ⟨⟨?_, ?_⟩, ih others _⟩
      · exact (kind_revise sets.keepsProse node state).trans own
      · obtain ⟨kind, text, attrs, children⟩ := node
        cases bare
        rfl

mutual

theorem WellFormed.revise (sets : SetsAttributes visit)
    : ∀ (node : Node) (state : σ), node.WellFormed → (node.revise visit state).1.WellFormed
  | ⟨kind, text, attrs, children⟩, state, ⟨closed, levels, below⟩ => by
      have same : (visit state ⟨kind, text, attrs, children⟩).1.kind = kind :=
        sets.kind state ⟨kind, text, attrs, children⟩
      refine ⟨fun own => ?_, fun level own => ?_, WellFormedAll.revise sets children _ below⟩
      · rw [same] at own
        exact raw_reviseAll sets (closed own) _
      · exact levels level (same.symm.trans own)

/-- A well-formed tree stays so. -/
theorem WellFormedAll.revise (sets : SetsAttributes visit)
    : ∀ (nodes : List Node) (state : σ),
        WellFormedAll nodes → WellFormedAll (reviseAll visit state nodes).1
  | [], _, _ => trivial
  | node :: rest, state, ⟨own, others⟩ =>
      ⟨WellFormed.revise sets node state own, WellFormedAll.revise sets rest _ others⟩

end

mutual

/-- If a visitor makes nothing more of a node that it has visited, it makes nothing more of a tree.
-/
theorem revise_again (sets : SetsAttributes visit)
    (idle
      : ∀ state node children,
          flattenAll children = flattenAll node.children →
            visit state { (visit state node).1 with children := children }
              = ({ (visit state node).1 with children := children }, (visit state node).2))
    : ∀ (node : Node) (state : σ),
        (node.revise visit state).1.revise visit state = node.revise visit state
  | ⟨kind, text, attrs, children⟩, state => by
      have once := idle state ⟨kind, text, attrs, children⟩ _
        (flattenAll_reviseAll sets.keepsProse children
          (visit state ⟨kind, text, attrs, children⟩).2)
      simp only [revise] at once ⊢
      rw [once]
      simp only [reviseAll_again sets idle children]

theorem reviseAll_again (sets : SetsAttributes visit)
    (idle
      : ∀ state node children,
          flattenAll children = flattenAll node.children →
            visit state { (visit state node).1 with children := children }
              = ({ (visit state node).1 with children := children }, (visit state node).2))
    : ∀ (nodes : List Node) (state : σ),
        reviseAll visit state (reviseAll visit state nodes).1 = reviseAll visit state nodes
  | [], _ => rfl
  | node :: rest, state => by
      simp only [reviseAll, revise_again sets idle node, reviseAll_again sets idle rest]

end

mutual

/-- A tree whose nodes a visitor leaves alone is left alone. -/
theorem revise_of_idle {state : σ}
    : ∀ node : Node, (∀ inner ∈ node.preorder, visit state inner = (inner, state)) →
        node.revise visit state = (node, state)
  | ⟨kind, text, attrs, children⟩, idle => by
      obtain ⟨own, below⟩ := List.forall_mem_cons.mp idle
      simp only [revise, own, reviseAll_of_idle children below]

theorem reviseAll_of_idle {state : σ}
    : ∀ nodes : List Node, (∀ inner ∈ preorderAll nodes, visit state inner = (inner, state)) →
        reviseAll visit state nodes = (nodes, state)
  | [], _ => rfl
  | node :: rest, idle => by
      obtain ⟨own, others⟩ := List.forall_mem_append.mp idle
      simp only [reviseAll, revise_of_idle node own, reviseAll_of_idle rest others]

end

end

end Node

-----------------------------------------------------------------------------------------
-- Visitors that record nodes
-----------------------------------------------------------------------------------------

/-- A node with these attributes that is otherwise met as another one. -/
structure Node.Like (node : Node) (attrs : List (String × String)) (revised : Node) : Prop where
  kind : revised.kind = node.kind
  text : revised.text = node.text
  attrs : revised.attrs = attrs
  count : revised.children.length = node.children.length

/-- How nodes are recorded. -/
structure Recording (ε : Type) where
  /-- Whether an entry records a node by an attribute of it. -/
  records : Node → ε → String → Prop
  /-- What the attribute is set to. -/
  value : ε → String

/-- The nodes of a tree before it is revised, the entries for those of them that are recorded, and
the nodes behind that. Each recorded node has its attribute set to what its entry tells; all else
is as it was.
-/
inductive Recording.Holds {ε : Type} (recording : Recording ε)
    : List Node → List ε → List Node → Prop
  | nil : recording.Holds [] [] []
  | kept {node revised : Node} {rest after : List Node} {entries : List ε}
      (other : ∀ entry key, ¬ recording.records node entry key)
      (same : node.Like node.attrs revised)
      (later : recording.Holds rest entries after)
      : recording.Holds (node :: rest) entries (revised :: after)
  | recorded {node revised : Node} {rest after : List Node} {entry : ε} {entries : List ε}
      {key : String}
      (own : recording.records node entry key)
      (set : node.Like (Node.setAttrIn key (recording.value entry) node.attrs) revised)
      (later : recording.Holds rest entries after)
      : recording.Holds (node :: rest) (entry :: entries) (revised :: after)

section

variable {ε σ : Type} {recording : Recording ε}

theorem Recording.Holds.append {front frontAfter back backAfter : List Node}
    {entries later : List ε} (first : recording.Holds front entries frontAfter)
    (second : recording.Holds back later backAfter)
    : recording.Holds (front ++ back) (entries ++ later) (frontAfter ++ backAfter) := by
  induction first with
  | nil => exact second
  | kept other same _ ih => exact .kept other same ih
  | recorded own set _ ih => exact .recorded own set ih

theorem Recording.Holds.kinds {before after : List Node} {found : List ε}
    (held : recording.Holds before found after)
    : after.map (·.kind) = before.map (·.kind) := by
  induction held with
  | nil => rfl
  | kept _ same _ ih => rw [List.map_cons, List.map_cons, same.kind, ih]
  | recorded _ set _ ih => rw [List.map_cons, List.map_cons, set.kind, ih]

/-- What can be told from kinds and attributes, and is not told by recorded nodes, stays so. -/
theorem Recording.Holds.filterMap_eq {α : Type} {pick : Node → Option α}
    {before after : List Node} {found : List ε} (held : recording.Holds before found after)
    (alike : ∀ {node revised : Node}, node.Like node.attrs revised → pick revised = pick node)
    (aside
      : ∀ {node revised : Node} {entry key},
          recording.records node entry key → revised.kind = node.kind →
            pick revised = none ∧ pick node = none)
    : after.filterMap pick = before.filterMap pick := by
  induction held with
  | nil => rfl
  | kept _ same _ ih => rw [List.filterMap_cons, List.filterMap_cons, alike same, ih]
  | recorded own set _ ih =>
      obtain ⟨later, earlier⟩ := aside own set.kind
      rw [List.filterMap_cons, List.filterMap_cons, later, earlier, ih]

/-- What a visitor does to one node, if it records nodes in this way: it leaves the node and the
entries alone, or it adds an entry for the node and sets the attribute.
-/
def Recording.Guides (recording : Recording ε) (entries : σ → List ε)
    (visit : σ → Node → Node × σ)
    : Prop :=
  ∀ state node,
    ((∀ entry key, ¬ recording.records node entry key) ∧ visit state node = (node, state))
    ∨ ∃ entry key,
        recording.records node entry key
        ∧ (visit state node).1 = node.setAttr key (recording.value entry)
        ∧ entries (visit state node).2 = entries state ++ [entry]

variable {entries : σ → List ε} {visit : σ → Node → Node × σ}

theorem Recording.Guides.setsAttributes (guides : recording.Guides entries visit)
    : Node.SetsAttributes visit := by
  intro state node
  rcases guides state node with ⟨_, same⟩ | ⟨entry, key, _, set, _⟩
  · cases node
    exact ⟨_, congrArg Prod.fst same⟩
  · exact ⟨_, set⟩

mutual

theorem Recording.Guides.revise (guides : recording.Guides entries visit)
    : ∀ (node : Node) (state : σ),
        ∃ found,
          entries (node.revise visit state).2 = entries state ++ found
          ∧ recording.Holds node.preorder found (node.revise visit state).1.preorder
  | ⟨kind, text, attrs, children⟩, state => by
      obtain ⟨found, added, below⟩ :=
        guides.reviseAll children (visit state ⟨kind, text, attrs, children⟩).2
      have count : (Node.reviseAll visit (visit state ⟨kind, text, attrs, children⟩).2
          children).1.length = children.length :=
        Node.length_reviseAll _ children
      rcases guides state ⟨kind, text, attrs, children⟩ with
        ⟨other, same⟩ | ⟨entry, key, own, set, noted⟩
      · simp only [Node.revise, Node.preorder, same] at added below count ⊢
        exact ⟨found, added, .kept other ⟨rfl, rfl, rfl, count⟩ below⟩
      · simp only [Node.revise, Node.preorder, set, noted] at added below count ⊢
        refine ⟨entry :: found, by rw [added, List.append_assoc]; rfl, ?_⟩
        exact .recorded own ⟨rfl, rfl, rfl, count⟩ below

/-- The entries that a visitor adds are those of the nodes it meets, in order. -/
theorem Recording.Guides.reviseAll (guides : recording.Guides entries visit)
    : ∀ (nodes : List Node) (state : σ),
        ∃ found,
          entries (Node.reviseAll visit state nodes).2 = entries state ++ found
          ∧ recording.Holds (Node.preorderAll nodes) found
              (Node.preorderAll (Node.reviseAll visit state nodes).1)
  | [], state => ⟨[], (List.append_nil _).symm, .nil⟩
  | node :: rest, state => by
      obtain ⟨found, added, first⟩ := guides.revise node state
      obtain ⟨later, more, others⟩ := guides.reviseAll rest (node.revise visit state).2
      refine ⟨found ++ later, ?_, first.append others⟩
      simp only [Node.reviseAll, more, added, List.append_assoc]

end

end

end Publication.Document
