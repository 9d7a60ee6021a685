import Publication.Proofs.Document.Growing
import Publication.Proofs.Document.Passes

/-! Walks over a tree. A walk shows the nodes at the positions of a tree in lexicographic order,
each of them once, and leaves off behind the first one at which the visitor says no. So what is
looked up is found in this order; and a visitor that revises nodes and keeps their children meets
all of them in it.
-/

namespace Publication.Document.Node

-----------------------------------------------------------------------------------------
-- Positions
-----------------------------------------------------------------------------------------

/-- Where a node is in a tree: which child is taken at each node on the way down to it. -/
abbrev Position := List Nat

/-- The node at a position, if there is one. -/
def at? (node : Node) : Position → Option Node
  | [] => some node
  | index :: rest => node.children[index]?.bind fun child => child.at? rest

mutual

/-- The positions of a tree, each before those below it. -/
def positions : Node → List Position
  | ⟨_, _, _, children⟩ => [] :: positionsFrom 0 children

/-- The positions in a forest whose first tree is the child with a number. -/
def positionsFrom (index : Nat) : List Node → List Position
  | [] => []
  | node :: rest => (positions node).map (index :: ·) ++ positionsFrom (index + 1) rest

end

/-- The positions in a forest are those in its trees. -/
theorem mem_positionsFrom_iff {index : Nat} {nodes : List Node} {position : Position}
    : position ∈ positionsFrom index nodes
      ↔ ∃ count child inner,
          nodes[count]? = some child ∧ inner ∈ child.positions ∧ position = (index + count) :: inner
    := by
  induction nodes generalizing index with
  | nil => simp [positionsFrom]
  | cons node rest ih =>
      rw [positionsFrom, List.mem_append, List.mem_map, ih]
      constructor
      · rintro (⟨inner, member, rfl⟩ | ⟨count, child, inner, found, member, rfl⟩)
        · exact ⟨0, node, inner, rfl, member, rfl⟩
        · exact ⟨count + 1, child, inner, found, member, by rw [Nat.add_assoc, Nat.add_comm 1]⟩
      · rintro ⟨_ | count, child, inner, found, member, rfl⟩
        · cases found
          exact .inl ⟨inner, member, rfl⟩
        · exact .inr ⟨count, child, inner, found, member, by rw [Nat.add_assoc, Nat.add_comm 1]⟩

/-- The positions of a tree are those at which there is a node, by induction on the position. -/
theorem mem_positions_iff {node : Node} {position : Position}
    : position ∈ node.positions ↔ (node.at? position).isSome = true := by
  induction position generalizing node with
  | nil =>
      obtain ⟨kind, text, attrs, children⟩ := node
      simp [positions, at?]
  | cons index rest ih =>
      obtain ⟨kind, text, attrs, children⟩ := node
      simp only [positions, List.mem_cons, reduceCtorEq, false_or, mem_positionsFrom_iff,
        Nat.zero_add, at?]
      constructor
      · rintro ⟨_, child, _, found, member, ⟨⟩⟩
        rw [found]
        exact ih.mp member
      · intro there
        cases found : children[index]? with
        | none =>
            rw [found] at there
            cases there
        | some child =>
            rw [found] at there
            exact ⟨index, child, rest, found, ih.mpr there, rfl⟩

mutual

/-- The positions of a tree are in lexicographic order. -/
theorem pairwise_positions : ∀ node : Node, node.positions.Pairwise (· < ·)
  | ⟨_, _, _, children⟩ => by
      rw [positions, List.pairwise_cons]
      refine ⟨fun position member => ?_, pairwise_positionsFrom children 0⟩
      obtain ⟨_, _, _, _, _, rfl⟩ := mem_positionsFrom_iff.mp member
      exact List.nil_lt_cons _ _

theorem pairwise_positionsFrom
    : ∀ (nodes : List Node) (index : Nat), (positionsFrom index nodes).Pairwise (· < ·)
  | [], _ => .nil
  | node :: rest, index => by
      rw [positionsFrom, List.pairwise_append, List.pairwise_map]
      refine ⟨?_, pairwise_positionsFrom rest (index + 1), fun first member second behind => ?_⟩
      · exact (pairwise_positions node).imp List.cons_lt_cons_self.mpr
      · obtain ⟨inner, _, rfl⟩ := List.mem_map.mp member
        obtain ⟨count, _, _, _, _, rfl⟩ := mem_positionsFrom_iff.mp behind
        exact List.cons_lt_cons_iff.mpr (.inl (by omega))

end

mutual

/-- The nodes of a tree are at its positions. -/
theorem map_at?_positions
    : ∀ node : Node, node.positions.map node.at? = node.preorder.map some
  | ⟨kind, text, attrs, children⟩ => by
      rw [positions, preorder, List.map_cons, List.map_cons]
      congr 1
      exact map_at?_positionsFrom children [] rfl

theorem map_at?_positionsFrom {node : Node}
    : ∀ (nodes front : List Node), node.children = front ++ nodes →
        (positionsFrom front.length nodes).map node.at? = (preorderAll nodes).map some
  | [], _, _ => rfl
  | child :: rest, front, below => by
      have first : (child.positions.map (front.length :: ·)).map node.at?
          = child.preorder.map some := by
        rw [← map_at?_positions child, List.map_map]
        refine List.map_congr_left fun position _ => ?_
        simp [at?, below]
      have others := map_at?_positionsFrom rest (front ++ [child]) (by rw [below]; simp)
      rw [List.length_append, List.length_singleton] at others
      rw [positionsFrom, preorderAll, List.map_append, List.map_append, first, others]

end

-----------------------------------------------------------------------------------------
-- Visitors that may say no
-----------------------------------------------------------------------------------------

section

variable {σ : Type}

/-- The answers of a visitor that is shown nodes one after the other to the end. -/
def answers (visit : σ → Node → σ × Bool) (state : σ) : List Node → List Bool
  | [] => []
  | node :: rest => (visit state node).2 :: answers visit (visit state node).1 rest

/-- The state of a visitor that was shown nodes one after the other to the end. -/
def stateAfter (visit : σ → Node → σ × Bool) (state : σ) (nodes : List Node) : σ :=
  nodes.foldl (fun state node => (visit state node).1) state

/-- The nodes up to the first one at which a visitor says no, and that one. -/
def untilNo (visit : σ → Node → σ × Bool) (state : σ) (nodes : List Node) : List Node :=
  nodes.take ((answers visit state nodes).findIdx (!·) + 1)

/-- A visitor that notes the nodes it is shown. -/
def noting (visit : σ → Node → σ × Bool) (known : List Node × σ) (node : Node)
    : (List Node × σ) × Bool :=
  ((known.1 ++ [node], (visit known.2 node).1), (visit known.2 node).2)

variable (visit : σ → Node → σ × Bool)

/-- Behind a node at which the visitor says no there is nothing more to see, and behind another one
there is what it says no to next.
-/
theorem untilNo_cons (state : σ) (node : Node) (rest : List Node)
    : untilNo visit state (node :: rest)
      = node :: if (visit state node).2 then untilNo visit (visit state node).1 rest else [] := by
  rw [untilNo, answers, List.findIdx_cons]
  cases (visit state node).2 <;> rfl

/-- Nodes are shown up to the first one at which the visitor says no, by induction on them. -/
theorem showAll_eq (nodes : List Node) (state : σ)
    : showAll visit state nodes
      = (stateAfter visit state (untilNo visit state nodes),
          (answers visit state (untilNo visit state nodes)).all id) := by
  induction nodes generalizing state with
  | nil => rfl
  | cons node rest ih =>
      rw [untilNo_cons, showAll]
      rcases said : visit state node with ⟨next, _ | _⟩
      · simp [stateAfter, answers, said]
      · simpa [stateAfter, answers, said] using ih next

theorem answers_noting (nodes before : List Node) (state : σ)
    : answers (noting visit) (before, state) nodes = answers visit state nodes := by
  induction nodes generalizing before state with
  | nil => rfl
  | cons node rest ih =>
      rw [answers, answers]
      exact congrArg _ (ih (before ++ [node]) (visit state node).1)

/-- What a visitor notes are the nodes that it was shown, by induction on them. -/
theorem stateAfter_noting (nodes before : List Node) (state : σ)
    : stateAfter (noting visit) (before, state) nodes
      = (before ++ nodes, stateAfter visit state nodes) := by
  induction nodes generalizing before state with
  | nil => rw [List.append_nil]; rfl
  | cons node rest ih =>
      rw [List.append_cons]
      exact ih (before ++ [node]) (visit state node).1

/-- A walk shows the nodes of a tree up to the first one at which the visitor says no. -/
theorem walk_eq (node : Node) (state : σ)
    : node.walk visit state
      = (stateAfter visit state (untilNo visit state node.preorder),
          (answers visit state (untilNo visit state node.preorder)).all id) := by
  rw [walk_eq_showAll, showAll_eq]

theorem walk_noting (node : Node) (state : σ)
    : node.walk (noting visit) ([], state)
      = ((untilNo visit state node.preorder, (node.walk visit state).1),
          (node.walk visit state).2) := by
  have same : untilNo (noting visit) ([], state) node.preorder
      = untilNo visit state node.preorder := by
    rw [untilNo, untilNo, answers_noting]
  rw [walk_eq, walk_eq, same, stateAfter_noting, answers_noting, List.nil_append]

end

-----------------------------------------------------------------------------------------
-- Looking up
-----------------------------------------------------------------------------------------

/-- The node that is found is the first one that passes the test: there the walk stops. -/
theorem find?_eq (node : Node) (test : Node → Bool)
    : node.find? test = node.preorder.find? test := by
  rw [find?, walk_eq_showAll, @fst_showAll_eq_findSome? _ _ (Option.guard test)]
  · induction node.preorder with
    | nil => rfl
    | cons first rest ih =>
        rw [List.findSome?_cons, List.find?_cons, Option.guard, ih]
        cases test first <;> rfl
  · intro first value offered
    obtain ⟨rfl, passed⟩ := Option.guard_eq_some_iff.mp offered
    simp [passed]
  · intro first offered
    have failed := Option.guard_eq_none_iff.mp offered
    simp [failed]

-----------------------------------------------------------------------------------------
-- Visitors that revise
-----------------------------------------------------------------------------------------

section

variable {σ : Type}

mutual

/-- How a visitor goes over a tree that it revises: from a node it comes to the children that the
node has then. Listed are the nodes that it is shown, as they are when it comes to them.
-/
inductive Revises (visit : σ → Node → Node × σ)
    : (state : σ) → Node → (shown : List Node) → (revised : Node) → (last : σ) → Prop
  | node {state next last : σ} {node made : Node} {shown children : List Node}
      (own : visit state node = (made, next))
      (below : RevisesAll visit next made.children shown children last)
      : Revises visit state node (node :: shown) { made with children := children } last

/-- How a visitor goes over the nodes of a forest that it revises, in order. -/
inductive RevisesAll (visit : σ → Node → Node × σ)
    : (state : σ) → List Node → (shown revised : List Node) → (last : σ) → Prop
  | nil {state : σ} : RevisesAll visit state [] [] [] state
  | cons {state next last : σ} {node made : Node} {rest shown more revised : List Node}
      (first : Revises visit state node shown made next)
      (others : RevisesAll visit next rest more revised last)
      : RevisesAll visit state (node :: rest) (shown ++ more) (made :: revised) last

end

/-- A visitor that keeps the children of nodes. -/
def KeepsChildren (visit : σ → Node → Node × σ) : Prop :=
  ∀ state node, (visit state node).1.children = node.children

variable {visit : σ → Node → Node × σ}

mutual

theorem revises_revise (keeps : KeepsChildren visit) : ∀ (node : Node) (state : σ),
    Revises visit state node node.preorder (node.revise visit state).1 (node.revise visit state).2
  | ⟨kind, text, attrs, children⟩, state => by
      rw [preorder]
      refine .node rfl ?_
      rw [keeps]
      exact revisesAll_reviseAll keeps children _

/-- A visitor that keeps children goes over a forest in order. -/
theorem revisesAll_reviseAll (keeps : KeepsChildren visit) : ∀ (nodes : List Node) (state : σ),
    RevisesAll visit state nodes (preorderAll nodes) (reviseAll visit state nodes).1
      (reviseAll visit state nodes).2
  | [], _ => .nil
  | node :: rest, state =>
      .cons (revises_revise keeps node state) (revisesAll_reviseAll keeps rest _)

end

mutual

theorem Revises.eq (keeps : KeepsChildren visit) {state last : σ} {revised : Node}
    {shown : List Node}
    : ∀ {node : Node}, Revises visit state node shown revised last →
        shown = node.preorder ∧ node.revise visit state = (revised, last)
  | ⟨kind, text, attrs, children⟩, .node own below => by
      have kept := keeps state ⟨kind, text, attrs, children⟩
      rw [own] at kept
      rw [kept] at below
      obtain ⟨rfl, made⟩ := RevisesAll.eq keeps below
      simp only [preorder, revise, own, made, and_self]

/-- A visitor that keeps children goes over a forest in no other way. -/
theorem RevisesAll.eq (keeps : KeepsChildren visit) {state last : σ} {revised shown : List Node}
    : ∀ {nodes : List Node}, RevisesAll visit state nodes shown revised last →
        shown = preorderAll nodes ∧ reviseAll visit state nodes = (revised, last)
  | [], .nil => ⟨rfl, rfl⟩
  | _ :: _, .cons first others => by
      obtain ⟨rfl, one⟩ := Revises.eq keeps first
      obtain ⟨rfl, more⟩ := RevisesAll.eq keeps others
      simp only [preorderAll, reviseAll, one, more, and_self]

end

/-- A visitor that keeps children goes over a tree in its order, and makes of it what revising it
makes.
-/
theorem revises_iff (keeps : KeepsChildren visit) {state last : σ} {node revised : Node}
    {shown : List Node}
    : Revises visit state node shown revised last
      ↔ shown = node.preorder ∧ node.revise visit state = (revised, last) := by
  constructor
  · exact Revises.eq keeps
  · rintro ⟨rfl, made⟩
    have whole := revises_revise keeps node state
    rwa [made] at whole

end

-----------------------------------------------------------------------------------------
-- Walks in order
-----------------------------------------------------------------------------------------

/-- The nodes of a tree in order are those at its positions in lexicographic order. A walk shows the
first of them, each once, up to the first one at which the visitor says no, and it tells whether the
visitor never did. So of the nodes that satisfy a test, all are found in this order, and the first
one is found alone. A visitor that revises nodes and keeps their children is shown all of them in
this order.
-/
theorem walks_in_order (node : Node)
    : (node.positions.Pairwise (· < ·)
        ∧ (∀ position, position ∈ node.positions ↔ (node.at? position).isSome = true)
        ∧ node.positions.map node.at? = node.preorder.map some)
      ∧ (∀ {σ : Type} (visit : σ → Node → σ × Bool) (state : σ),
          let shown := node.preorder.take
            ((answers visit state node.preorder).findIdx (fun answer => !answer) + 1)
          (node.walk (noting visit) ([], state)).1 = (shown, (node.walk visit state).1)
          ∧ (node.walk (noting visit) ([], state)).2 = (node.walk visit state).2
          ∧ (node.walk visit state).1 = stateAfter visit state shown
          ∧ ((node.walk visit state).2 = true ↔ false ∉ answers visit state shown))
      ∧ (∀ test : Node → Bool,
          node.findAll test = node.preorder.filter test
          ∧ node.find? test = (node.findAll test).head?)
      ∧ ∀ {σ : Type} (visit : σ → Node → Node × σ),
          KeepsChildren visit →
            ∀ state shown revised last,
              Revises visit state node shown revised last
              ↔ shown = node.preorder ∧ node.revise visit state = (revised, last) := by
  refine ⟨⟨pairwise_positions node, fun _ => mem_positions_iff, map_at?_positions node⟩,
    fun visit state => ?_, fun test => ?_, fun visit keeps _ _ _ _ => revises_iff keeps⟩
  · intro shown
    have noted := walk_noting visit node state
    have whole := walk_eq visit node state
    refine ⟨congrArg Prod.fst noted, congrArg Prod.snd noted, congrArg Prod.fst whole, ?_⟩
    rw [whole, List.all_eq_true]
    exact ⟨fun agreed refused => Bool.noConfusion (agreed false refused),
      fun agreed answer member => Bool.of_not_eq_false fun same => agreed (same ▸ member)⟩
  · rw [findAll_eq_filter, find?_eq, List.head?_filter]
    exact ⟨rfl, rfl⟩

/-- Paragraphs before, in and behind a quote. -/
def quotedNote : Node :=
  ⟨.document, none, [],
    [⟨.paragraph, none, [], [.leaf .text "Before."]⟩,
      ⟨.blockQuote, none, [], [⟨.paragraph, none, [], [.leaf .text "Inside."]⟩]⟩,
      ⟨.paragraph, none, [], [.leaf .text "Behind."]⟩]⟩

/-- Says no at the first paragraph behind the beginning of a quote. -/
def leavesQuote (quoted : Bool) (node : Node) : Bool × Bool :=
  (quoted || node.kind = .blockQuote, !(quoted && node.kind = .paragraph))

/-- Counts the nodes, and marks paragraphs. -/
def marksParagraphs (count : Nat) (node : Node) : Node × Nat :=
  (if node.kind = .paragraph then node.setAttr "class" "note" else node, count + 1)

/-- A walk that ends in a quote shows nothing behind it, and a visitor that marks paragraphs comes
to all of them.
-/
theorem walks_over_quotedNote
    : (quotedNote.walk (noting leavesQuote) ([], false)).1.1.map (·.kind)
        = [.document, .paragraph, .text, .blockQuote, .paragraph]
      ∧ (quotedNote.walk leavesQuote false).2 = false
      ∧ (quotedNote.find? (·.kind = .blockQuote)).isSome = true
      ∧ KeepsChildren marksParagraphs
      ∧ ∃ revised,
          Revises marksParagraphs 0 quotedNote quotedNote.preorder revised 8
          ∧ revised.preorder.map (·.attrs)
            = [[], [("class", "note")], [], [], [("class", "note")], [], [("class", "note")], []]
    := by
  obtain ⟨_, walks, finds, revises⟩ := walks_in_order quotedNote
  obtain ⟨noted, _, _, agreed⟩ := walks leavesQuote false
  have keeps : KeepsChildren marksParagraphs := by
    intro state node
    rw [marksParagraphs]
    split <;> rfl
  refine ⟨?_, ?_, ?_, keeps, _, (revises marksParagraphs keeps 0 _ _ _).mpr ⟨rfl, rfl⟩, ?_⟩
  · rw [noted]
    decide +kernel
  · refine Bool.eq_false_iff.mpr fun never => agreed.mp never ?_
    decide +kernel
  · rw [(finds _).2, (finds _).1]
    decide +kernel
  · decide +kernel

end Publication.Document.Node
