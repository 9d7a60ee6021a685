import Mathlib.Data.List.Nodup
import Mathlib.Logic.Function.Iterate
import Publication.Proofs.Document.Anchors
import Publication.Proofs.Document.Growing

/-! Shapes of trees. Whatever is signalled, well-nested or not, the tree is a document with no other
one in it, its leaves are those that were signalled outside images, in order, and each node has the
text, the children and the attributes that go with its kind. What is recorded of a tree changes none
of that.
-/

namespace Publication.Document

open Publication.Markdown

-----------------------------------------------------------------------------------------
-- Signals
-----------------------------------------------------------------------------------------

/-- What may be signalled while a text is read: an event, or that a container begins for which there
is no kind of its own, such as raised text. Its end is an end like any other.
-/
inductive Signal where
  | event (event : Event)
  | extension

namespace Builder

/-- Takes one signal. -/
def take (b : Builder) : Signal → Builder
  | .event event => b.step event
  | .extension => b.push { kind := .span }

/-- The document and what is open in it, innermost first. -/
def stack (b : Builder) : List Node := b.inner ++ [b.document]

/-- Which open containers are images, innermost first. -/
def pictures (b : Builder) : List Bool := b.inner.map (·.kind = .image)

end Builder

/-- The tree that signals build. -/
def ofSignals (signals : List Signal) : Node := (signals.foldl Builder.take {}).finish

theorem ofSignals_map_event (events : List Event)
    : ofSignals (events.map .event) = ofEvents events := by
  rw [ofSignals, List.foldl_map]
  rfl

/-- How many nodes are open behind a signal, with the document, which is never closed. -/
def Signal.height (count : Nat) : Signal → Nat
  | .extension | .event (.start _) => count + 1
  | .event (.stop _) => max 1 (count - 1)
  | .event _ => count

/-- The leaf that an event stands for. -/
def leaf? : Event → Option Node
  | .start _ | .stop _ => none
  | .text content => some (.leaf .text content)
  | .code content => some (.leaf .code content)
  | .math display content => some (.leaf (.formula display) content)
  | .html content | .inlineHtml content => some (.leaf .rawHtml content)
  | .footnoteReference label => some (.leaf .footnoteReference label)
  | .softBreak => some { kind := .softBreak }
  | .hardBreak => some { kind := .hardBreak }
  | .rule => some { kind := .rule }
  | .taskMarker checked => some { kind := .taskMarker checked }

/-- The leaves that are signalled outside images, in order, where it is known which open containers
are images, innermost first.
-/
def leavesOutside : (pictures : List Bool) → List Signal → List Node
  | _, [] => []
  | pictures, .extension :: rest => leavesOutside (false :: pictures) rest
  | pictures, .event (.start tag) :: rest =>
      leavesOutside ((Event.start tag).beginsImage :: pictures) rest
  | pictures, .event (.stop _) :: rest => leavesOutside pictures.tail rest
  | pictures, .event event :: rest =>
      (if pictures.any id then [] else (leaf? event).toList) ++ leavesOutside pictures rest

-----------------------------------------------------------------------------------------
-- Nodes of trees
-----------------------------------------------------------------------------------------

/-- The kinds of leaves. An image is none: it stands for what it encloses. -/
def Kind.isLeaf (kind : Kind) : Bool := kind.isBare && kind ≠ .image

theorem Kind.isBare_of_isLeaf {kind : Kind} (leaf : kind.isLeaf = true) : kind.isBare = true :=
  (Bool.and_eq_true_iff.mp leaf).1

namespace Node

def keys (node : Node) : List String := node.attrs.map (·.1)

/-- A node as its kind has it: also an image has its attributes, and no key is there twice. -/
structure Regular (node : Node) : Prop extends Shaped node where
  pictured : node.kind = .image → node.keys = ["src", "alt", "title"]
  distinct : node.keys.Nodup

/-- A container that is open is as its kind has it, but for what an image encloses. -/
structure Begun (node : Node) : Prop extends Open node where
  inner : node.kind ≠ .document
  pictured : node.kind = .image → node.keys = ["src", "alt", "title"]
  distinct : node.keys.Nodup

/-- A document with no other one in it, in which each node is as its kind has it. -/
structure WellMade (document : Node) : Prop where
  root : document.kind = .document
  inner : ∀ node ∈ document.preorder.tail, node.kind ≠ .document
  regular : ∀ node ∈ document.preorder, node.Regular

/-- The leaves of a tree in order. -/
def leaves (node : Node) : List Node := node.preorder.filter (·.kind.isLeaf)

/-- The leaves of a forest in order. -/
def leavesAll (nodes : List Node) : List Node := (preorderAll nodes).filter (·.kind.isLeaf)

theorem preorder_eq (node : Node) : node.preorder = node :: preorderAll node.children := by
  obtain ⟨kind, text, attrs, children⟩ := node
  rfl

theorem preorderAll_append (front back : List Node)
    : preorderAll (front ++ back) = preorderAll front ++ preorderAll back := by
  induction front with
  | nil => rfl
  | cons node rest ih => rw [List.cons_append, preorderAll, preorderAll, ih, List.append_assoc]

theorem leavesAll_concat (nodes : List Node) (last : Node)
    : leavesAll (nodes ++ [last]) = leavesAll nodes ++ last.leaves := by
  rw [leavesAll, preorderAll_append, List.filter_append, preorderAll, preorderAll, List.append_nil]
  rfl

theorem leaves_of_outer {node : Node} (outer : node.kind.isLeaf = false)
    : node.leaves = leavesAll node.children := by
  rw [leaves, preorder_eq, List.filter_cons, outer]
  rfl

/-- An attribute is set where its key is, or else behind the others. -/
theorem map_fst_setAttrIn (key value : String) (attrs : List (String × String))
    : (setAttrIn key value attrs).map (·.1)
      = if key ∈ attrs.map (·.1) then attrs.map (·.1) else attrs.map (·.1) ++ [key] := by
  induction attrs with
  | nil => rfl
  | cons attr rest ih =>
      by_cases same : attr.1 = key
      · simp [setAttrIn, same]
      · simp only [setAttrIn, same, if_false, List.map_cons, ih, List.mem_cons, Ne.symm same,
          false_or]
        split <;> rfl

theorem keys_set_of_mem {node : Node} {key : String} (there : key ∈ node.keys) (value : String)
    : (node.setAttr key value).keys = node.keys := by
  rw [keys, setAttr, map_fst_setAttrIn]
  exact if_pos there

/-- Keys stay different when an attribute is set. -/
theorem nodup_map_fst_setAttrIn {attrs : List (String × String)}
    (distinct : (attrs.map (·.1)).Nodup) (key value : String)
    : ((setAttrIn key value attrs).map (·.1)).Nodup := by
  rw [map_fst_setAttrIn]
  split
  next => exact distinct
  next other =>
      rw [← List.concat_eq_append, List.nodup_concat]
      exact ⟨other, distinct⟩

end Node

theorem Node.Open.outer {node : Node} (own : node.Open) : node.kind.isLeaf = false := by
  refine Bool.eq_false_iff.mpr fun leaf => ?_
  obtain ⟨bare, other⟩ := Bool.and_eq_true_iff.mp leaf
  exact of_decide_eq_true other (own.holds bare)

theorem Node.Begun.closes
    : Builder.Closes Node.Begun fun node => node.kind ≠ .document ∧ node.Regular where
  grows _ _ own := ⟨⟨own.holds, own.silent⟩, own.inner, own.pictured, own.distinct⟩
  closes node own := by
    have shaped := Builder.ripens_shaped.closes node own.toOpen
    by_cases image : node.kind = .image
    · have kept : (node.setAttr "alt" node.flatten).keys = node.keys := by
        refine Node.keys_set_of_mem ?_ _
        rw [own.pictured image]
        decide
      rw [Builder.folded, if_pos image] at shaped ⊢
      refine ⟨own.inner, shaped, fun _ => kept.trans (own.pictured image), ?_⟩
      exact (congrArg List.Nodup kept).mpr own.distinct
    · rw [Builder.folded_of_ne_image image] at shaped ⊢
      exact ⟨own.inner, shaped, own.pictured, own.distinct⟩

theorem Node.begun_opened (tag : Tag) (c : Columns) : (c.opened tag).Begun := by
  have shut := open_opened tag c
  cases tag with
  | image kind dest title id =>
      have distinct : ["src", "alt", "title"].Nodup := by decide
      exact ⟨shut, Kind.noConfusion, fun _ => rfl, distinct⟩
  | codeBlock kind =>
      cases kind with
      | indented => exact ⟨shut, Kind.noConfusion, Kind.noConfusion, .nil⟩
      | fenced info =>
          simp only [Columns.opened, Builder.start] at shut ⊢
          split at shut
          next plain =>
              rw [if_pos plain]
              exact ⟨shut, Kind.noConfusion, Kind.noConfusion, .nil⟩
          next named =>
              rw [if_neg named]
              exact ⟨shut, Kind.noConfusion, Kind.noConfusion, List.nodup_singleton _⟩
  | tableCell =>
      refine ⟨shut, Kind.noConfusion, Kind.noConfusion, ?_⟩
      simp only [Columns.opened, Builder.start]
      split
      · exact List.nodup_singleton _
      · exact .nil
  | footnoteDefinition label =>
      exact ⟨shut, Kind.noConfusion, Kind.noConfusion, List.nodup_singleton _⟩
  | link kind dest title id =>
      have distinct : ["href", "title"].Nodup := by decide
      exact ⟨shut, Kind.noConfusion, Kind.noConfusion, distinct⟩
  | _ => exact ⟨shut, Kind.noConfusion, Kind.noConfusion, .nil⟩

/-- An event that stands alone adds the leaf that it stands for. -/
theorem leaf?_eq {event : Event} (alone : event.isLeaf = true)
    : leaf? event = some (leafOf event) := by
  cases event with
  | start => cases alone
  | stop => cases alone
  | _ => rfl

theorem Node.regular_leafOf {event : Event} (alone : event.isLeaf = true)
    : (leafOf event).kind ≠ .document ∧ (leafOf event).kind.isLeaf = true
      ∧ (leafOf event).Regular := by
  have shaped := shaped_leafOf alone
  cases event with
  | start => cases alone
  | stop => cases alone
  | _ => exact ⟨Kind.noConfusion, rfl, shaped, Kind.noConfusion, .nil⟩

-----------------------------------------------------------------------------------------
-- Building
-----------------------------------------------------------------------------------------

namespace Builder

/-- A tree under construction in which each node is as its kind has it. -/
def WellBegun (b : Builder) : Prop :=
  b.Sound Node.Begun fun node => node.kind ≠ .document ∧ node.Regular

theorem wellBegun_empty : ({} : Builder).WellBegun :=
  ⟨⟨[], rfl, List.forall_mem_nil _⟩, List.forall_mem_nil _⟩

theorem WellBegun.take {b : Builder} (well : b.WellBegun) (signal : Signal)
    : (b.take signal).WellBegun := by
  cases signal with
  | event event =>
      refine Sound.step well Node.Begun.closes (fun tag c _ => Node.begun_opened tag c) ?_
      intro alone
      obtain ⟨other, _, regular⟩ := Node.regular_leafOf alone
      exact ⟨other, regular⟩
  | extension =>
      have own : Node.Begun { kind := .span } :=
        ⟨⟨nofun, rfl⟩, Kind.noConfusion, Kind.noConfusion, .nil⟩
      exact Sound.push well own (List.forall_mem_nil _)

theorem wellBegun_foldl (signals : List Signal) {b : Builder} (well : b.WellBegun)
    : (signals.foldl take b).WellBegun := by
  induction signals generalizing b with
  | nil => exact well
  | cons signal rest ih => exact ih (well.take signal)

theorem WellBegun.wellMade_finish {b : Builder} (well : b.WellBegun) : b.finish.WellMade := by
  obtain ⟨children, root, below⟩ := Sound.exists_finish well Node.Begun.closes
  have inside {node : Node} (member : node ∈ Node.preorderAll children)
      : node.kind ≠ .document ∧ node.Regular := by
    obtain ⟨child, among, here⟩ := Node.mem_preorderAll_iff.mp member
    exact below child among node here
  rw [root]
  refine ⟨rfl, fun node member => (inside member).1, List.forall_mem_cons.mpr ⟨?_, ?_⟩⟩
  · exact ⟨Builder.ripens_shaped.root children, Kind.noConfusion, .nil⟩
  · exact fun node member => (inside member).2

-----------------------------------------------------------------------------------------
-- The stack
-----------------------------------------------------------------------------------------

theorem length_inner_add (b : Builder) (node : Node)
    : (b.add node).inner.length = b.inner.length := by
  simp only [add]
  split
  next outermost => rw [outermost]
  next parent outer opened => rw [opened, List.length_cons, List.length_cons]

/-- One signal changes the height of the stack as it says, and never takes the document off. -/
theorem length_stack_take (b : Builder) (signal : Signal)
    : (b.take signal).stack.length = signal.height b.stack.length := by
  have height (b : Builder) : b.stack.length = b.inner.length + 1 := by
    rw [stack, List.length_append, List.length_singleton]
  rw [height, height]
  cases signal with
  | extension => rfl
  | event event =>
      by_cases alone : event.isLeaf = true
      · rw [take, step_leaf alone, length_inner_add]
        cases event with
        | start => cases alone
        | stop => cases alone
        | _ => rfl
      · cases event with
        | start tag =>
            rw [take, step, start_eq]
            rfl
        | stop tag =>
            rw [take, step, length_inner_stop, Signal.height]
            omega
        | _ => exact absurd rfl alone

theorem length_stack_foldl (signals : List Signal) (b : Builder)
    : (signals.foldl take b).stack.length = signals.foldl Signal.height b.stack.length := by
  induction signals generalizing b with
  | nil => rfl
  | cons signal rest ih => rw [List.foldl_cons, ih, length_stack_take, List.foldl_cons]

/-- The tree is what is left when ends are signalled until nothing but the document is open. -/
theorem stack_stops (count : Nat) {b : Builder} (enough : b.inner.length ≤ count)
    : (stop^[count] b).stack = [b.finish] := by
  induction count generalizing b with
  | zero =>
      have outermost : b.inner = [] := List.eq_nil_of_length_eq_zero (Nat.le_zero.mp enough)
      rw [Function.iterate_zero, id, stack, finish, outermost]
      rfl
  | succ count ih =>
      rw [Function.iterate_succ_apply, ih, finish_stop]
      rw [length_inner_stop]
      omega

-----------------------------------------------------------------------------------------
-- Leaves
-----------------------------------------------------------------------------------------

/-- The leaves in open containers, innermost first, that no image encloses. -/
def visible : List Node → List Node
  | [] => []
  | node :: outer =>
      visible outer
        ++ if (node :: outer).any (·.kind = .image) then [] else Node.leavesAll node.children

/-- The leaves gathered so far that no image encloses. -/
def gathered (b : Builder) : List Node := Node.leavesAll b.document.children ++ visible b.inner

theorem any_pictures (b : Builder) : b.pictures.any id = b.inner.any (·.kind = .image) := by
  rw [pictures, List.any_map]
  rfl

theorem gathered_add (b : Builder) (node : Node)
    : (b.add node).gathered
      = b.gathered ++ if b.pictures.any id then [] else node.leaves := by
  rw [any_pictures]
  cases opened : b.inner with
  | nil =>
      simp only [gathered, add, opened, visible, Node.addChild, Node.leavesAll_concat,
        List.append_nil, List.any_nil, Bool.false_eq_true, if_false]
  | cons parent outer =>
      simp only [gathered, add, opened, visible, Node.addChild, List.any_cons,
        Node.leavesAll_concat, List.append_assoc]
      split
      next enclosed => simp only [enclosed, if_true, List.append_nil]
      next outside => simp only [outside, Bool.false_eq_true, if_false]

theorem gathered_push (b : Builder) {node : Node} (bare : node.children = [])
    : (b.push node).gathered = b.gathered := by
  simp only [gathered, push, visible, bare]
  split <;> simp [Node.leavesAll, Node.preorderAll]

/-- An end signals no leaf: what was open has its leaves outside images, and an image has none. -/
theorem WellBegun.gathered_stop {b : Builder} (well : b.WellBegun)
    : b.stop.gathered = b.gathered := by
  cases opened : b.inner with
  | nil => rw [stop, opened]
  | cons node outer =>
      have own : node.Begun := (well.inner node (opened ▸ List.mem_cons_self)).1
      rw [stop, opened, gathered_add, any_pictures]
      simp only [gathered, opened, visible, List.any_cons, List.append_assoc]
      rw [folded]
      -- An image may enclose the container, or it may be one itself; else its leaves are kept.
      split
      next enclosed => simp [enclosed]
      next outside =>
          split
          next image =>
              have bare : ({ node.setAttr "alt" node.flatten with children := [] } : Node).leaves
                  = [] :=
                Node.leaves_of_outer own.outer
              simp [image, bare]
          next other => simp [other, outside, Node.leaves_of_outer own.outer]

theorem WellBegun.leaves_finish {b : Builder} (well : b.WellBegun)
    : b.finish.leaves = b.gathered := by
  induction left : b.inner.length generalizing b with
  | zero =>
      have outermost : b.inner = [] := List.eq_nil_of_length_eq_zero left
      obtain ⟨children, root, _⟩ := well.document
      rw [finish, outermost, gathered, outermost, root, Node.leaves_of_outer rfl]
      exact (List.append_nil _).symm
  | succ count ih =>
      rw [← finish_stop, ← well.gathered_stop]
      exact ih (well.take (.event (.stop .paragraph)))
        (by rw [length_inner_stop, left, Nat.add_sub_cancel])

theorem pictures_add (b : Builder) (node : Node) : (b.add node).pictures = b.pictures := by
  simp only [pictures, add]
  split
  next outermost => rw [outermost]
  next parent outer opened => rw [opened]; rfl

theorem pictures_stop (b : Builder) : b.stop.pictures = b.pictures.tail := by
  rw [stop]
  split
  next outermost => rw [pictures, outermost]; rfl
  next node outer opened => rw [pictures_add, pictures, pictures, opened]; rfl

/-- What is opened is an image where the event begins one. -/
theorem isImage_opened (c : Columns) (tag : Tag)
    : decide ((c.opened tag).kind = .image) = (Event.start tag).beginsImage := by
  cases begins : (Event.start tag).beginsImage with
  | false => exact decide_eq_false (kind_opened_ne_image c begins)
  | true =>
      cases tag with
      | image => rfl
      | _ => cases begins

/-- One signal adds to the leaves that are gathered what it signals outside images. -/
theorem WellBegun.gathered_take {b : Builder} (well : b.WellBegun) (signal : Signal)
    (rest : List Signal)
    : (b.take signal).gathered ++ leavesOutside (b.take signal).pictures rest
      = b.gathered ++ leavesOutside b.pictures (signal :: rest) := by
  cases signal with
  | extension =>
      rw [Builder.take, gathered_push b rfl]
      rfl
  | event event =>
      by_cases alone : event.isLeaf = true
      · obtain ⟨_, shown, regular⟩ := Node.regular_leafOf alone
        have leaf : (leafOf event).leaves = (leaf? event).toList := by
          rw [leaf?_eq alone, Node.leaves, Node.preorder_eq,
            regular.bare (Kind.isBare_of_isLeaf shown)]
          simp [Node.preorderAll, shown]
        have signalled : leavesOutside b.pictures (.event event :: rest)
            = (if b.pictures.any id then [] else (leaf? event).toList)
                ++ leavesOutside b.pictures rest := by
          cases event with
          | start => cases alone
          | stop => cases alone
          | _ => rfl
        rw [Builder.take, step_leaf alone, gathered_add, pictures_add, signalled, leaf,
          List.append_assoc]
      · cases event with
        | start tag =>
            have opened : (b.start tag).pictures = (Event.start tag).beginsImage :: b.pictures := by
              rw [start_eq, ← isImage_opened b.columns]
              rfl
            have same : (b.start tag).gathered = b.gathered := by
              rw [start_eq]
              exact gathered_push b (children_opened b.columns tag)
            rw [Builder.take, step, same, opened]
            rfl
        | stop tag =>
            rw [Builder.take, step, well.gathered_stop, pictures_stop]
            rfl
        | _ => exact absurd rfl alone

/-- Signals add to the leaves that are gathered what they signal outside images, by induction on
them.
-/
theorem gathered_foldl (signals : List Signal) {b : Builder} (well : b.WellBegun)
    : (signals.foldl take b).gathered = b.gathered ++ leavesOutside b.pictures signals := by
  induction signals generalizing b with
  | nil => exact (List.append_nil _).symm
  | cons signal rest ih => rw [List.foldl_cons, ih (well.take signal), well.gathered_take]

end Builder

-----------------------------------------------------------------------------------------
-- What is recorded of a tree
-----------------------------------------------------------------------------------------

/-- A node of the same kind, text and number of children is as its kind has it, if its keys are. -/
theorem Node.Regular.like {node revised : Node} {attrs : List (String × String)}
    (regular : node.Regular) (like : node.Like attrs revised)
    (pictured : node.kind = .image → attrs.map (·.1) = ["src", "alt", "title"])
    (distinct : (attrs.map (·.1)).Nodup)
    : revised.Regular := by
  refine ⟨⟨fun shut => ?_, fun plain => ?_⟩, fun image => ?_, ?_⟩
  · rw [← List.length_eq_zero_iff, like.count, regular.bare (like.kind ▸ shut)]
    rfl
  · exact like.text.trans (regular.silent (like.kind ▸ plain))
  · rw [keys, like.attrs]
    exact pictured (like.kind ▸ image)
  · rw [keys, like.attrs]
    exact distinct

/-- A leaf that keeps its attributes is the same leaf. -/
theorem Node.Regular.eq_of_like {node revised : Node} (regular : node.Regular)
    (leaf : node.kind.isLeaf = true) (like : node.Like node.attrs revised)
    : revised = node := by
  have bare := regular.bare (Kind.isBare_of_isLeaf leaf)
  have none_below : revised.children = [] := by
    rw [← List.length_eq_zero_iff, like.count, bare]
    rfl
  obtain ⟨kind, text, attrs, children⟩ := node
  obtain ⟨kind', text', attrs', children'⟩ := revised
  obtain ⟨same, sameText, sameAttrs, _⟩ := like
  cases same
  cases sameText
  cases sameAttrs
  cases bare
  cases none_below
  rfl

/-- What is recorded is no leaf, and an image by an attribute that it has. -/
def Recording.Aside {ε : Type} (recording : Recording ε) : Prop :=
  ∀ node entry key, recording.records node entry key →
    node.kind.isLeaf = false ∧ (node.kind = .image → key ∈ node.keys)

section

variable {ε : Type} {recording : Recording ε} {before after : List Node} {found : List ε}

theorem Recording.Holds.regular (held : recording.Holds before found after)
    (aside : recording.Aside) (regular : ∀ node ∈ before, node.Regular)
    : ∀ node ∈ after, node.Regular := by
  induction held with
  | nil => exact List.forall_mem_nil _
  | @kept node _ _ _ _ _ same _ ih =>
      obtain ⟨own, others⟩ := List.forall_mem_cons.mp regular
      exact List.forall_mem_cons.mpr ⟨own.like same own.pictured own.distinct, ih others⟩
  | @recorded node _ _ _ entry _ key records set _ ih =>
      obtain ⟨own, others⟩ := List.forall_mem_cons.mp regular
      refine List.forall_mem_cons.mpr ⟨own.like set (fun image => ?_) ?_, ih others⟩
      · have there := (aside node entry key records).2 image
        exact (Node.keys_set_of_mem there _).trans (own.pictured image)
      · exact Node.nodup_map_fst_setAttrIn own.distinct _ _

theorem Recording.Holds.leaves (held : recording.Holds before found after)
    (aside : recording.Aside) (regular : ∀ node ∈ before, node.Regular)
    : after.filter (·.kind.isLeaf) = before.filter (·.kind.isLeaf) := by
  induction held with
  | nil => rfl
  | @kept node revised _ _ _ _ same _ ih =>
      obtain ⟨own, others⟩ := List.forall_mem_cons.mp regular
      rw [List.filter_cons, List.filter_cons, ih others, same.kind]
      split
      next leaf => rw [own.eq_of_like leaf same]
      next => rfl
  | @recorded node revised _ _ entry _ key records set _ ih =>
      obtain ⟨_, others⟩ := List.forall_mem_cons.mp regular
      have outer := (aside node entry key records).1
      rw [List.filter_cons, List.filter_cons, ih others, set.kind, outer]
      rfl

/-- A tree of which nodes are recorded keeps its shape and its leaves. -/
theorem Recording.Holds.wellMade {document revised : Node}
    (held : recording.Holds document.preorder found revised.preorder) (aside : recording.Aside)
    (well : document.WellMade)
    : revised.WellMade ∧ revised.leaves = document.leaves := by
  have kinds := held.kinds
  rw [Node.preorder_eq document, Node.preorder_eq revised, List.map_cons, List.map_cons] at kinds
  obtain ⟨root, below⟩ := List.cons.inj kinds
  have inner := well.inner
  rw [Node.preorder_eq document, List.tail_cons] at inner
  refine ⟨⟨root.trans well.root, fun node member document => ?_, held.regular aside well.regular⟩,
    held.leaves aside well.regular⟩
  rw [Node.preorder_eq revised, List.tail_cons] at member
  have among : node.kind ∈ (Node.preorderAll revised.children).map (·.kind) :=
    List.mem_map_of_mem member
  rw [below] at among
  obtain ⟨old, there, same⟩ := List.mem_map.mp among
  exact inner old there (same.trans document)

end

theorem aside_redirecting (dir : Path) : (redirecting dir).Aside := by
  rintro node resource key ⟨refers, ⟨rest, given, _⟩, _⟩
  refine ⟨?_, fun _ => ?_⟩
  · cases own : node.kind with
    | link | image => rfl
    | _ =>
        rw [referenceKey?, own] at refers
        cases refers
  · obtain ⟨attr, first, _⟩ := Option.map_eq_some_iff.mp given
    have same := List.find?_some first
    exact List.mem_map.mpr ⟨attr, List.mem_of_find?_eq_some first, of_decide_eq_true same⟩

theorem aside_anchoring : anchoring.Aside := by
  rintro node entry key ⟨heading, _, _⟩
  rw [heading]
  exact ⟨rfl, Kind.noConfusion⟩

-----------------------------------------------------------------------------------------
-- Trees of signals
-----------------------------------------------------------------------------------------

/-- Whatever is signalled, the document is never taken off the stack, and what is left on it when
all else is closed is the tree: a document with no other one in it, in which each node is as its
kind has it, with the leaves that were signalled outside images, in order. Events are signals. The
redirection of references and the anchoring of headings keep all of that.
-/
theorem shapes_of_trees [Transliteration]
    : (∀ signals : List Signal,
        let b := signals.foldl Builder.take {}
        b.stack.length = signals.foldl Signal.height 1
        ∧ b.stack.getLast?.map (·.kind) = some .document
        ∧ (∀ node ∈ b.stack.dropLast, node.kind ≠ .document)
        ∧ (∀ count, b.inner.length ≤ count →
            (Builder.stop^[count] b).stack = [ofSignals signals])
        ∧ (ofSignals signals).WellMade
        ∧ (ofSignals signals).leaves = leavesOutside [] signals)
      ∧ (∀ events, ofSignals (events.map .event) = ofEvents events)
      ∧ ∀ document, document.WellMade → ∀ (directory : String) (dir : Path),
          let linked := (extractResources document directory dir).2
          let anchored := (extractContents document).2
          linked.WellMade
          ∧ linked.leaves = document.leaves
          ∧ anchored.WellMade
          ∧ anchored.leaves = document.leaves := by
  refine ⟨fun signals => ?_, ofSignals_map_event, fun document well directory dir => ?_⟩
  · intro b
    have begun : b.WellBegun := Builder.wellBegun_foldl signals Builder.wellBegun_empty
    refine ⟨Builder.length_stack_foldl signals {}, ?_, ?_, fun count => Builder.stack_stops count,
      begun.wellMade_finish, ?_⟩
    · obtain ⟨children, root, _⟩ := begun.document
      rw [Builder.stack, List.getLast?_concat, root]
      rfl
    · rw [Builder.stack, List.dropLast_concat]
      exact fun node member => (begun.inner node member).1.inner
    · have gathered := Builder.gathered_foldl signals Builder.wellBegun_empty
      exact begun.leaves_finish.trans gathered
  · intro linked anchored
    obtain ⟨linkedWell, linkedLeaves⟩ :=
      (holds_extractResources document directory dir).wellMade (aside_redirecting dir) well
    obtain ⟨anchoredWell, anchoredLeaves⟩ :=
      (holds_extractContents document).wellMade aside_anchoring well
    exact ⟨linkedWell, linkedLeaves, anchoredWell, anchoredLeaves⟩

section

open scoped Publication.StandIns

/-- Ends without starts are passed over, what is open is closed, and of what stands in images there
is nothing but their texts.
-/
theorem shapes_of_crossedEnds
    : let signals : List Signal :=
        [.event (.stop .emphasis), .event (.start (.heading 1 none [] [])), .event (.text "a"),
          .event (.start (.image .inline "file://p.png" "" "")), .event (.text "b"), .extension,
          .event .softBreak, .event (.stop .image), .event (.code "c"), .event (.stop .emphasis),
          .event (.stop .image), .event .rule, .event (.start (.image .inline "" "" "")),
          .event (.text "d")]
      let document := ofSignals signals
      let linked := (extractResources document "doc" ⟨"."⟩).2
      let anchored := (extractContents document).2
      document.WellMade
      ∧ document.leaves = [.leaf .text "a", { kind := .rule }]
      ∧ linked.WellMade
      ∧ linked.leaves = document.leaves
      ∧ anchored.WellMade
      ∧ anchored.leaves = document.leaves := by
  intro signals document linked anchored
  obtain ⟨built, _, keeps⟩ := shapes_of_trees
  obtain ⟨_, _, _, _, well, leaves⟩ := built signals
  have outside : leavesOutside [] signals = [.leaf .text "a", { kind := .rule }] := rfl
  obtain ⟨linkedWell, linkedLeaves, anchoredWell, anchoredLeaves⟩ :=
    keeps document well "doc" ⟨"."⟩
  exact ⟨well, leaves.trans outside, linkedWell, linkedLeaves, anchoredWell, anchoredLeaves⟩

end

end Publication.Document
