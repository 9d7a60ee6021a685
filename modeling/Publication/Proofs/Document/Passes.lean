import Mathlib.Data.List.Forall2
import Mathlib.Data.List.Perm.Basic
import Publication.Document.Abstract
import Publication.Proofs.Document.Anchors

/-! The passes over a document. The search for the abstract, the redirection of references and the
anchoring of headings do not get in each other's way: in any order they find the same and leave the
same tree. Each changes nothing of the tree but the attributes that it is there to set.
-/

namespace Publication.Document

namespace Node

-----------------------------------------------------------------------------------------
-- Walks
-----------------------------------------------------------------------------------------

/-- Shows nodes to a visitor one after the other, until the visitor says no. -/
def showAll {σ : Type} (visit : σ → Node → σ × Bool) (state : σ) : List Node → σ × Bool
  | [] => (state, true)
  | node :: rest =>
      match visit state node with
      | (state, false) => (state, false)
      | (state, true) => showAll visit state rest

section

variable {σ : Type} (visit : σ → Node → σ × Bool)

theorem showAll_append (front back : List Node) (state : σ)
    : showAll visit state (front ++ back)
      = match showAll visit state front with
        | (state, false) => (state, false)
        | (state, true) => showAll visit state back := by
  induction front generalizing state with
  | nil => rfl
  | cons node rest ih =>
      simp only [List.cons_append, showAll]
      split
      · rfl
      · exact ih _

/-- A visitor that says no at the first node that offers something is left with that. -/
theorem fst_showAll_eq_findSome? {α : Type} {visit : Option α → Node → Option α × Bool}
    {offer : Node → Option α}
    (stops : ∀ node value, offer node = some value → visit none node = (some value, false))
    (passes : ∀ node, offer node = none → visit none node = (none, true)) (nodes : List Node)
    : (showAll visit none nodes).1 = nodes.findSome? offer := by
  induction nodes with
  | nil => rfl
  | cons node rest ih =>
      cases offered : offer node with
      | some value => simp only [showAll, stops node value offered, List.findSome?_cons, offered]
      | none => simp only [showAll, passes node offered, List.findSome?_cons, offered, ih]

mutual

theorem walk_eq_showAll
    : ∀ (node : Node) (state : σ), node.walk visit state = showAll visit state node.preorder
  | ⟨kind, text, attrs, children⟩, state => by
      rcases shown : visit state ⟨kind, text, attrs, children⟩ with ⟨next, _ | _⟩
      · simp only [walk, preorder, showAll, shown]
      · simp only [walk, preorder, showAll, shown, walkAll_eq_showAll children]

/-- A walk shows the nodes in the order of the tree, and leaves off where the visitor says no. -/
theorem walkAll_eq_showAll
    : ∀ (nodes : List Node) (state : σ),
        walkAll visit state nodes = showAll visit state (preorderAll nodes)
  | [], _ => rfl
  | node :: rest, state => by
      rcases shown : showAll visit state node.preorder with ⟨next, _ | _⟩
      · simp only [walkAll, preorderAll, showAll_append, walk_eq_showAll node, shown]
      · simp only [walkAll, preorderAll, showAll_append, walk_eq_showAll node, shown,
          walkAll_eq_showAll rest]

end

end

-----------------------------------------------------------------------------------------
-- What is told by kinds and texts
-----------------------------------------------------------------------------------------

section

variable {σ : Type} {visit : σ → Node → Node × σ}

theorem text_revise (keeps : KeepsProse visit) {node : Node} (legible : node.kind ≠ .rawHtml)
    (state : σ)
    : (node.revise visit state).1.text = node.text := by
  obtain ⟨kind, text, attrs, children⟩ := node
  exact (keeps state _).2 legible

/-- What there is to read in a node itself, and what kind of node it is. -/
def prose (node : Node) : Kind × Option String :=
  (node.kind, if node.kind = .rawHtml then none else node.text)

theorem map_prose_reviseAll (keeps : KeepsProse visit) (nodes : List Node) (state : σ)
    : (reviseAll visit state nodes).1.map prose = nodes.map prose := by
  induction nodes generalizing state with
  | nil => rfl
  | cons node rest ih =>
      have own : prose (node.revise visit state).1 = prose node := by
        rw [prose, prose, kind_revise keeps]
        by_cases raw : node.kind = .rawHtml
        · rw [if_pos raw, if_pos raw]
        · rw [if_neg raw, if_neg raw, text_revise keeps raw]
      simp only [reviseAll, List.map_cons, own, ih]

/-- Whether a node holds nothing but raw markup is told by what there is to read in its children. -/
theorem isRawPlaceholder_congr {node revised : Node}
    (children : revised.children.map prose = node.children.map prose)
    : revised.isRawPlaceholder = node.isRawPlaceholder := by
  -- What is asked of each child is asked of its kind and of the text that there is to read.
  have raw (child : Node)
      : ((prose child).1 = .rawHtml || isFiller ⟨(prose child).1, (prose child).2, [], []⟩)
        = (child.kind = .rawHtml || child.isFiller) := by
    obtain ⟨kind, text, attrs, children⟩ := child
    cases kind <;> rfl
  have asked (nodes : List Node)
      : (nodes.all (fun child => child.kind = .rawHtml || child.isFiller)
          && nodes.any (·.kind = .rawHtml))
        = ((nodes.map prose).all
            (fun child => child.1 = .rawHtml || isFiller ⟨child.1, child.2, [], []⟩)
          && (nodes.map prose).any (·.1 = .rawHtml)) := by
    rw [List.all_map, List.any_map]
    simp only [Function.comp_def, raw]
    rfl
  rw [isRawPlaceholder, isRawPlaceholder, asked, asked, children]

theorem abstractOf?_congr {node revised : Node} (kind : revised.kind = node.kind)
    (text : node.kind ≠ .rawHtml → revised.text = node.text)
    (children : revised.children.map prose = node.children.map prose)
    (below : flattenAll revised.children = flattenAll node.children)
    : abstractOf? revised = abstractOf? node := by
  rw [abstractOf?, abstractOf?, kind, isRawPlaceholder_congr children,
    flatten_congr kind text below]

mutual

theorem map_abstractOf?_revise (keeps : KeepsProse visit)
    : ∀ (node : Node) (state : σ),
        (node.revise visit state).1.preorder.map abstractOf? = node.preorder.map abstractOf?
  | ⟨kind, text, attrs, children⟩, state => by
      have own : abstractOf? (revise visit state ⟨kind, text, attrs, children⟩).1
          = abstractOf? ⟨kind, text, attrs, children⟩ :=
        abstractOf?_congr (keeps state _).1 (keeps state _).2 (map_prose_reviseAll keeps children _)
          (flattenAll_reviseAll keeps children _)
      exact congrArg₂ List.cons own (map_abstractOf?_reviseAll keeps children _)

/-- What nodes offer as an abstract depends neither on their attributes nor on raw markup. -/
theorem map_abstractOf?_reviseAll (keeps : KeepsProse visit)
    : ∀ (nodes : List Node) (state : σ),
        (preorderAll (reviseAll visit state nodes).1).map abstractOf?
          = (preorderAll nodes).map abstractOf?
  | [], _ => rfl
  | node :: rest, state => by
      simp only [reviseAll, preorderAll, List.map_append, map_abstractOf?_revise keeps node,
        map_abstractOf?_reviseAll keeps rest]

end

/-- The abstract is what the first node offers that offers any. -/
theorem abstract_eq (document : Node)
    : abstract document = (document.preorder.findSome? abstractOf?).getD "" := by
  rw [abstract, walk_eq_showAll, fst_showAll_eq_findSome?]
  · intro node text offered
    simp only [offered]
  · intro node offered
    simp only [offered]

theorem abstract_revise (keeps : KeepsProse visit) (document : Node) (state : σ)
    : abstract (document.revise visit state).1 = abstract document := by
  have told (nodes : List Node)
      : nodes.findSome? abstractOf? = (nodes.map abstractOf?).findSome? id := by
    rw [List.findSome?_map]
    rfl
  rw [abstract_eq, abstract_eq, told, map_abstractOf?_revise keeps, ← told]

end

-----------------------------------------------------------------------------------------
-- Visitors that do not get in each other's way
-----------------------------------------------------------------------------------------

section

variable {σ τ : Type} {first : σ → Node → Node × σ} {second : τ → Node → Node × τ}

/-- A visitor that changes nothing of a node but its attributes, and sees nothing of the nodes below
it but their text.
-/
structure Discreet (visit : σ → Node → Node × σ) : Prop where
  sets : SetsAttributes visit
  seen
    : ∀ state kind text attrs children others, flattenAll others = flattenAll children →
        (visit state ⟨kind, text, attrs, others⟩).1.attrs
            = (visit state ⟨kind, text, attrs, children⟩).1.attrs
          ∧ (visit state ⟨kind, text, attrs, others⟩).2
            = (visit state ⟨kind, text, attrs, children⟩).2

/-- What two visitors know of a node, and what they make of it, is the same whichever is first. -/
def Independent (first : σ → Node → Node × σ) (second : τ → Node → Node × τ) : Prop :=
  ∀ s t node,
    (first s (second t node).1).2 = (first s node).2
    ∧ (second t (first s node).1).2 = (second t node).2
    ∧ (first s (second t node).1).1 = (second t (first s node).1).1

theorem revise_eq {visit : σ → Node → Node × σ} (sets : SetsAttributes visit) (state : σ)
    (kind : Kind) (text : Option String) (attrs : List (String × String)) (children : List Node)
    : revise visit state ⟨kind, text, attrs, children⟩
      = (⟨kind, text, (visit state ⟨kind, text, attrs, children⟩).1.attrs,
            (reviseAll visit (visit state ⟨kind, text, attrs, children⟩).2 children).1⟩,
          (reviseAll visit (visit state ⟨kind, text, attrs, children⟩).2 children).2) := by
  obtain ⟨set, same⟩ := sets state ⟨kind, text, attrs, children⟩
  simp only [revise, same]

/-- A node is visited alike if the nodes below it were revised before. -/
theorem Discreet.revise_eq {visit : σ → Node → Node × σ} (discreet : Discreet visit) (state : σ)
    (kind : Kind) (text : Option String) (attrs : List (String × String))
    {children others : List Node} (below : flattenAll others = flattenAll children)
    : revise visit state ⟨kind, text, attrs, others⟩
      = (⟨kind, text, (visit state ⟨kind, text, attrs, children⟩).1.attrs,
            (reviseAll visit (visit state ⟨kind, text, attrs, children⟩).2 others).1⟩,
          (reviseAll visit (visit state ⟨kind, text, attrs, children⟩).2 others).2) := by
  obtain ⟨set, known⟩ := discreet.seen state kind text attrs children others below
  rw [Node.revise_eq discreet.sets, set, known]

mutual

theorem revise_revise (apart : Independent first second) (one : Discreet first)
    (two : Discreet second)
    : ∀ (node : Node) (s : σ) (t : τ),
        ((node.revise second t).1.revise first s).1 = ((node.revise first s).1.revise second t).1
        ∧ ((node.revise second t).1.revise first s).2 = (node.revise first s).2
        ∧ ((node.revise first s).1.revise second t).2 = (node.revise second t).2
  | ⟨kind, text, attrs, children⟩, s, t => by
      obtain ⟨known, knownToo, made⟩ := apart s t ⟨kind, text, attrs, children⟩
      obtain ⟨own, same⟩ := one.sets s ⟨kind, text, attrs, children⟩
      obtain ⟨other, sameToo⟩ := two.sets t ⟨kind, text, attrs, children⟩
      rw [sameToo] at known
      rw [same] at knownToo
      rw [same, sameToo] at made
      obtain ⟨below, state, stateToo⟩ := reviseAll_reviseAll apart one two children
        (first s ⟨kind, text, attrs, children⟩).2 (second t ⟨kind, text, attrs, children⟩).2
      rw [revise_eq one.sets s kind, revise_eq two.sets t kind, same, sameToo,
        one.revise_eq s kind text other (flattenAll_reviseAll two.sets.keepsProse children _),
        two.revise_eq t kind text own (flattenAll_reviseAll one.sets.keepsProse children _),
        known, knownToo]
      exact ⟨by rw [made, below], state, stateToo⟩

/-- Visitors that are independent revise a forest alike in either order. -/
theorem reviseAll_reviseAll (apart : Independent first second) (one : Discreet first)
    (two : Discreet second)
    : ∀ (nodes : List Node) (s : σ) (t : τ),
        (reviseAll first s (reviseAll second t nodes).1).1
          = (reviseAll second t (reviseAll first s nodes).1).1
        ∧ (reviseAll first s (reviseAll second t nodes).1).2 = (reviseAll first s nodes).2
        ∧ (reviseAll second t (reviseAll first s nodes).1).2 = (reviseAll second t nodes).2
  | [], _, _ => ⟨rfl, rfl, rfl⟩
  | node :: rest, s, t => by
      obtain ⟨own, next, nextToo⟩ := revise_revise apart one two node s t
      obtain ⟨others, state, stateToo⟩ :=
        reviseAll_reviseAll apart one two rest (node.revise first s).2 (node.revise second t).2
      simp only [reviseAll, own, next, nextToo]
      exact ⟨by rw [others], state, stateToo⟩

end

end

-----------------------------------------------------------------------------------------
-- Trees of the same shape
-----------------------------------------------------------------------------------------

mutual

/-- A tree and another one of the same shape, with the same kinds and texts. What the attributes of
a node are in the other one is told by `becomes`.
-/
def Turns (becomes : Node → List (String × String) → Prop) : Node → Node → Prop
  | ⟨kind, text, attrs, children⟩, turned =>
      turned.kind = kind
      ∧ turned.text = text
      ∧ becomes ⟨kind, text, attrs, children⟩ turned.attrs
      ∧ TurnsAll becomes children turned.children

def TurnsAll (becomes : Node → List (String × String) → Prop) : List Node → List Node → Prop
  | [], turned => turned = []
  | node :: rest, turned =>
      ∃ first others,
        turned = first :: others ∧ Turns becomes node first ∧ TurnsAll becomes rest others

end

section

variable {σ : Type} {visit : σ → Node → Node × σ}
  {becomes : Node → List (String × String) → Prop}

mutual

theorem turns_revise (sets : SetsAttributes visit)
    (own : ∀ state node, becomes node (visit state node).1.attrs)
    : ∀ (node : Node) (state : σ), Turns becomes node (node.revise visit state).1
  | ⟨_, _, _, children⟩, state =>
      ⟨sets.kind state _, sets.text state _, own state _, turnsAll_reviseAll sets own children _⟩

/-- What a visitor makes of nodes one by one it makes of a forest. -/
theorem turnsAll_reviseAll (sets : SetsAttributes visit)
    (own : ∀ state node, becomes node (visit state node).1.attrs)
    : ∀ (nodes : List Node) (state : σ), TurnsAll becomes nodes (reviseAll visit state nodes).1
  | [], _ => rfl
  | node :: rest, state =>
      ⟨_, _, rfl, turns_revise sets own node state, turnsAll_reviseAll sets own rest _⟩

end

end

-----------------------------------------------------------------------------------------
-- Attributes that are kept
-----------------------------------------------------------------------------------------

/-- Attributes with the same keys in the same order, of which none but those under one key have
other values.
-/
def Retains (key? : Option String) (attrs kept : List (String × String)) : Prop :=
  List.Forall₂ (fun old new => new.1 = old.1 ∧ (key? = some old.1 ∨ new = old)) attrs kept

theorem retains_refl (key? : Option String) (attrs : List (String × String))
    : Retains key? attrs attrs := by
  rw [Retains, List.forall₂_same]
  exact fun attr _ => ⟨rfl, .inr rfl⟩

/-- An attribute is set where it is, or else behind the others. -/
theorem exists_retains_setAttrIn (key value : String) (attrs : List (String × String))
    : ∃ kept more,
        setAttrIn key value attrs = kept ++ more
        ∧ Retains (some key) attrs kept
        ∧ (∀ attr ∈ more, attr.1 = key)
        ∧ (key ∈ attrs.map (·.1) → more = []) := by
  induction attrs with
  | nil => exact ⟨[], [(key, value)], rfl, .nil, by simp, by simp⟩
  | cons attr rest ih =>
      by_cases own : attr.1 = key
      · refine ⟨(attr.1, value) :: rest, [], by simp [setAttrIn, own], ?_, nofun, fun _ => rfl⟩
        exact .cons ⟨rfl, .inl (own ▸ rfl)⟩ (retains_refl _ _)
      · obtain ⟨kept, more, set, retains, last, there⟩ := ih
        refine ⟨attr :: kept, more, by simp [setAttrIn, own, set], ?_, last, fun among => ?_⟩
        · exact .cons ⟨rfl, .inr rfl⟩ retains
        · refine there ((List.mem_cons.mp among).resolve_left ?_)
          exact fun same => own same.symm

end Node

/-- Only the attribute by which a node refers to a file has another value. -/
def Relinks (node : Node) (attrs : List (String × String)) : Prop :=
  Node.Retains (referenceKey? node) node.attrs attrs

/-- The attribute that tells the anchor of a node. -/
def anchorKey? (node : Node) : Option String :=
  match node.kind with
  | .heading _ => some "id"
  | _ => none

/-- Only the attribute that tells the anchor of a node has another value, or stands behind the
others if it was not among them.
-/
def Anchors (node : Node) (attrs : List (String × String)) : Prop :=
  ∃ kept more,
    attrs = kept ++ more
    ∧ Node.Retains (anchorKey? node) node.attrs kept
    ∧ ∀ attr ∈ more, anchorKey? node = some attr.1 ∧ attr.1 ∉ node.attrs.map (·.1)

theorem relinks_visit (dir : Path) (m : Manifest) (node : Node)
    : Relinks node (m.visit dir node).1.attrs := by
  cases found : localFile? dir node with
  | none =>
      rw [Manifest.visit, found]
      exact Node.retains_refl _ _
  | some file =>
      obtain ⟨key, source⟩ := file
      obtain ⟨refers, _, given, _⟩ := localFile?_eq_some_iff.mp found
      obtain ⟨kept, more, set, retains, _, there⟩ :=
        Node.exists_retains_setAttrIn key (m.claim source false).1 node.attrs
      have among : key ∈ node.attrs.map (·.1) := by
        obtain ⟨attr, first, _⟩ := Option.map_eq_some_iff.mp given
        have same := List.find?_some first
        exact List.mem_map.mpr ⟨attr, List.mem_of_find?_eq_some first, by simpa using same⟩
      rw [there among, List.append_nil] at set
      have visited : (m.visit dir node).1.attrs = kept := by
        rw [Manifest.visit, found]
        exact set
      rw [Relinks, refers, visited]
      exact retains

theorem anchors_visit [Transliteration] (contents : Contents) (node : Node)
    : Anchors node (contents.visit node).1.attrs := by
  simp only [Contents.visit]
  split
  next level own =>
      have told : anchorKey? node = some "id" := by rw [anchorKey?, own]
      obtain ⟨kept, more, set, retains, last, there⟩ := Node.exists_retains_setAttrIn "id"
        (contents.anchors.claim (anchorBase (Text.trimmed node.flatten))).1 node.attrs
      refine ⟨kept, more, set, told ▸ retains, fun attr member => ?_⟩
      rw [told, last attr member]
      exact ⟨rfl, fun among => List.ne_nil_of_mem member (there among)⟩
  next =>
      exact ⟨node.attrs, [], (List.append_nil _).symm, Node.retains_refl _ _,
        List.forall_mem_nil _⟩

-----------------------------------------------------------------------------------------
-- The visitors of the passes
-----------------------------------------------------------------------------------------

/-- Whether a node refers to a file is told by its own kind and attributes. -/
theorem discreet_redirecting (dir : Path) : Node.Discreet (Manifest.visit dir) where
  sets := (guides_redirecting dir).setsAttributes
  seen := by
    intro m kind text attrs children others _
    have same : localFile? dir ⟨kind, text, attrs, others⟩
        = localFile? dir ⟨kind, text, attrs, children⟩ := rfl
    simp only [Manifest.visit, same]
    split <;> exact ⟨rfl, rfl⟩

/-- The anchor of a heading is told by the text in it. -/
theorem discreet_anchoring [Transliteration] : Node.Discreet Contents.visit where
  sets := guides_anchoring.setsAttributes
  seen := by
    intro contents kind text attrs children others below
    have same : Node.flatten ⟨kind, text, attrs, others⟩
        = Node.flatten ⟨kind, text, attrs, children⟩ :=
      Node.flatten_congr rfl (fun _ => rfl) below
    simp only [Contents.visit, same]
    split <;> exact ⟨rfl, rfl⟩

/-- A heading refers to nothing. -/
theorem visit_of_heading (dir : Path) (m : Manifest) {node : Node} {level : Nat}
    (own : node.kind = .heading level)
    : m.visit dir node = (node, m) := by
  have none_found : localFile? dir node = none := by
    rw [localFile?, referenceKey?, own]
    rfl
  rw [Manifest.visit, none_found]

/-- Nothing but a heading has an anchor. -/
theorem visit_of_not_heading [Transliteration] (contents : Contents) {node : Node}
    (other : ∀ level, node.kind ≠ .heading level)
    : contents.visit node = (node, contents) := by
  rw [Contents.visit]
  split
  next level own => exact absurd own (other level)
  next => rfl

/-- References and headings are different nodes: on any node one of the visitors does nothing. -/
theorem independent_visits [Transliteration] (dir : Path)
    : Node.Independent (Manifest.visit dir) Contents.visit := by
  intro m contents node
  by_cases heading : ∃ level, node.kind = .heading level
  · obtain ⟨level, own⟩ := heading
    have after := (discreet_anchoring.sets.kind contents node).trans own
    rw [visit_of_heading dir m own, visit_of_heading dir m after]
    exact ⟨rfl, rfl, rfl⟩
  · have other := not_exists.mp heading
    have after (level : Nat) : (m.visit dir node).1.kind ≠ .heading level :=
      (discreet_redirecting dir).sets.kind m node ▸ other level
    rw [visit_of_not_heading contents other, visit_of_not_heading contents after]
    exact ⟨rfl, rfl, rfl⟩

-----------------------------------------------------------------------------------------
-- Passes in any order
-----------------------------------------------------------------------------------------

/-- A pass over a document. -/
inductive Pass where
  | abstract
  | resources
  | contents
deriving DecidableEq

/-- What the passes that were run have found. -/
structure Findings where
  abstract : Option String := none
  manifest : Option Manifest := none
  contents : Option (List Entry) := none

/-- Runs a pass over what the passes before it have left. -/
def Pass.run [Transliteration] (directory : String) (dir : Path)
    : Findings × Node → Pass → Findings × Node
  | (found, document), .abstract =>
      ({ found with abstract := some (Document.abstract document) }, document)
  | (found, document), .resources =>
      let (manifest, document) := extractResources document directory dir
      ({ found with manifest := some manifest }, document)
  | (found, document), .contents =>
      let (entries, document) := extractContents document
      ({ found with contents := some entries }, document)

section

variable (directory : String) (dir : Path)

theorem abstract_extractResources (document : Node)
    : abstract (extractResources document directory dir).2 = abstract document :=
  Node.abstract_revise (discreet_redirecting dir).sets.keepsProse document _

theorem abstract_extractContents [Transliteration] (document : Node)
    : abstract (extractContents document).2 = abstract document :=
  Node.abstract_revise discreet_anchoring.sets.keepsProse document _

/-- References and headings are revised alike in either order. -/
theorem extractResources_extractContents [Transliteration] (document : Node)
    : (extractResources (extractContents document).2 directory dir).1
        = (extractResources document directory dir).1
      ∧ (extractContents (extractResources document directory dir).2).1
        = (extractContents document).1
      ∧ (extractResources (extractContents document).2 directory dir).2
        = (extractContents (extractResources document directory dir).2).2 := by
  obtain ⟨left, manifest, contents⟩ :=
    Node.revise_revise (independent_visits dir) (discreet_redirecting dir) discreet_anchoring
      document { directory := directory } {}
  exact ⟨manifest, congrArg Contents.entries contents, left⟩

/-- Two passes find the same and leave the same, whichever is run first. -/
theorem Pass.run_run [Transliteration] (state : Findings × Node) (first second : Pass)
    : Pass.run directory dir (Pass.run directory dir state first) second
      = Pass.run directory dir (Pass.run directory dir state second) first := by
  obtain ⟨found, document⟩ := state
  obtain ⟨manifest, entries, left⟩ := extractResources_extractContents directory dir document
  have linked := abstract_extractResources directory dir document
  have anchored := abstract_extractContents document
  cases first <;> cases second <;>
    simp only [Pass.run, manifest, entries, left, linked, anchored]

end

/-- The three passes find the same abstract, the same manifest and the same contents and leave the
same tree, in whatever order they are run, in any tree and with any directories. Each keeps the
shape of the tree, its kinds and its texts, and all attributes but those by which a node refers to a
file, or tells its anchor.
-/
theorem passes_in_any_order [Transliteration] (document : Node) (directory : String) (dir : Path)
    {order : List Pass} (all : order.Perm [.abstract, .resources, .contents])
    : let linked := (extractResources document directory dir).2
      let anchored := (extractContents document).2
      order.foldl (Pass.run directory dir) ({}, document)
          = ({ abstract := some (abstract document)
               manifest := some (extractResources document directory dir).1
               contents := some (extractContents document).1 },
              (extractContents linked).2)
        ∧ Node.Turns Relinks document linked
        ∧ Node.Turns Anchors document anchored := by
  intro linked anchored
  refine ⟨?_, ?_, ?_⟩
  · obtain ⟨_, entries, _⟩ := extractResources_extractContents directory dir document
    have sorted := all.foldl_eq' (f := Pass.run directory dir)
      (fun first _ second _ state => Pass.run_run directory dir state first second) ({}, document)
    simp only [sorted, List.foldl_cons, List.foldl_nil, Pass.run, entries, linked]
  · exact Node.turns_revise (discreet_redirecting dir).sets (relinks_visit dir) document _
  · exact Node.turns_revise discreet_anchoring.sets anchors_visit document _

/-- A heading with a picture in a link, before a paragraph. -/
def linkedFigure : Node :=
  ⟨.document, none, [],
    [⟨.heading 1, none, [],
        [⟨.link false, none, [("href", "file://plot.png")],
          [⟨.image, none, [("alt", ""), ("src", "file://plot.png")], [.leaf .text "Plot"]⟩]⟩]⟩,
      ⟨.paragraph, none, [], [.leaf .text "Measured twice."]⟩]⟩

section

open scoped Publication.StandIns

theorem passes_over_linkedFigure
    : [Pass.contents, .resources, .abstract].Perm [.abstract, .resources, .contents]
      ∧ (let left := [Pass.contents, .resources, .abstract].foldl (Pass.run "files" ⟨"doc"⟩)
          ({}, linkedFigure)
        left.1.abstract = some "Measured twice."
        ∧ left.1.contents = some [⟨1, "Plot", "plot"⟩]
        ∧ left.2.preorder.map (·.attrs)
          = [[], [("id", "plot")], [("href", "files/plot.png")],
              [("alt", ""), ("src", "files/1_plot.png")], [], [], []])
      ∧ Node.Turns Relinks linkedFigure (extractResources linkedFigure "files" ⟨"doc"⟩).2
      ∧ Node.Turns Anchors linkedFigure (extractContents linkedFigure).2 := by
  have all : [Pass.contents, .resources, .abstract].Perm [.abstract, .resources, .contents] := by
    decide
  obtain ⟨left, linked, anchored⟩ := passes_in_any_order linkedFigure "files" ⟨"doc"⟩ all
  refine ⟨all, ?_, linked, anchored⟩
  rw [left]
  decide +kernel

end

end Publication.Document
