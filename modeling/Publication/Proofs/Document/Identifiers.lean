import Publication.Html
import Publication.Proofs.Document.Anchors
import Publication.Proofs.Html.Writing

/-! The identifiers in the markup of a document. They are the anchors of its headings and the labels
of its footnotes, of which only the anchors are kept apart.
-/

namespace Publication

open Publication.Markdown

namespace Html

-----------------------------------------------------------------------------------------
-- Trees as markup
-----------------------------------------------------------------------------------------

/-- Events that are written as whole markup with their identifiers. -/
def Faithful (events : List Event) : Prop :=
  Whole events ((Markdown.identifiers events).map attributeValue)

theorem Faithful.append {front back : List Event} (first : Faithful front)
    (second : Faithful back)
    : Faithful (front ++ back) := by
  rw [Faithful, Markdown.identifiers_append, List.map_append]
  exact Whole.append first second

theorem Faithful.around {events : List Event} (inside : Faithful events) {tag : Tag}
    (bare : tag.IsBare)
    : Faithful (tag.around events) := by
  rw [Faithful, Markdown.identifiers_around, List.map_append]
  exact Whole.around inside bare

theorem faithful_leaf {event : Event} (alone : event.isLeaf = true)
    (cooked : ∀ text, event ≠ .html text ∧ event ≠ .inlineHtml text)
    : Faithful [event] := by
  have none : Markdown.identifiers [event] = [] := by
    cases event with
    | start | stop => cases alone
    | _ => rfl
  rw [Faithful, none]
  exact whole_leaf alone cooked

theorem faithful_image (kind : LinkKind) (dest title id alt : String)
    : Faithful ((Tag.image kind dest title id).around
        (if alt.isEmpty then [] else [.text alt])) := by
  have none : Markdown.identifiers ((Tag.image kind dest title id).around
      (if alt.isEmpty then [] else [.text alt])) = [] := by
    split <;> rfl
  rw [Faithful, none]
  exact whole_image kind dest title id alt

mutual

theorem faithful_events : ∀ node : Document.Node, node.WellFormed →
    (∀ inner ∈ node.preorder, inner.kind ≠ .rawHtml) → Faithful node.events
  | ⟨kind, text, attrs, children⟩, ⟨closed, _, below⟩, cooked => by
      obtain ⟨own, others⟩ := List.forall_mem_cons.mp cooked
      have inside := faithful_eventsAll children below others
      cases kind with
      | document | span => exact inside
      | rawHtml => exact absurd rfl own
      | text | code | formula | footnoteReference | taskMarker | softBreak | hardBreak | rule =>
          exact faithful_leaf rfl fun _ => ⟨Event.noConfusion, Event.noConfusion⟩
      | image => exact faithful_image .inline _ _ _ _
      | htmlBlock =>
          -- Only raw markup is in such a block, so nothing is.
          cases children with
          | nil => exact Faithful.around whole_nil trivial
          | cons child rest =>
              have raw := (closed rfl child List.mem_cons_self).1
              refine absurd raw (others child ?_)
              rw [Document.Node.preorderAll]
              exact List.mem_append_left _ (Document.Node.mem_preorder_self child)
      | heading level => exact inside.around ⟨rfl, rfl⟩
      | _ => exact inside.around trivial

/-- Without raw markup, trees are written with their identifiers. -/
theorem faithful_eventsAll : ∀ nodes : List Document.Node, Document.Node.WellFormedAll nodes →
    (∀ inner ∈ Document.Node.preorderAll nodes, inner.kind ≠ .rawHtml) →
      Faithful (Document.Node.eventsAll nodes)
  | [], _, _ => whole_nil
  | node :: rest, ⟨own, others⟩, cooked => by
      obtain ⟨first, later⟩ := List.forall_mem_append.mp cooked
      exact (faithful_events node own first).append (faithful_eventsAll rest others later)

end

end Html

namespace Document

-----------------------------------------------------------------------------------------
-- Labels and anchors
-----------------------------------------------------------------------------------------

/-- The label of a footnote. -/
def Node.label? (node : Node) : Option String :=
  match node.kind with
  | .footnoteDefinition => some (node.attrOr "id")
  | _ => none

/-- The labels of the footnotes of a document. -/
def labels (document : Node) : List String := document.preorder.filterMap Node.label?

/-- The identifier that a node is written with. -/
def Node.identifier? (node : Node) : Option String :=
  match node.kind with
  | .heading _ => node.attr? "id"
  | .footnoteDefinition => some (node.attrOr "id")
  | _ => none

theorem Node.identifier?_opening (node : Node)
    : node.opening?.bind Tag.identifier? = node.identifier? := by
  obtain ⟨kind, text, attrs, children⟩ := node
  cases kind <;> rfl

theorem Node.label?_of_kind {node : Node} (other : node.kind ≠ .footnoteDefinition)
    : node.label? = none := by
  unfold label?
  split
  next own => exact absurd own other
  next => rfl

/-- Recording other nodes leaves the labels as they are. -/
theorem labels_of_holds {ε : Type} {recording : Recording ε} {before after : Node}
    {found : List ε} (held : recording.Holds before.preorder found after.preorder)
    (other
      : ∀ node entry key, recording.records node entry key → node.kind ≠ .footnoteDefinition)
    : labels after = labels before := by
  refine held.filterMap_eq (fun {node revised} same => ?_)
    fun {node revised entry key} own kind => ?_
  · rw [Node.label?, Node.label?, same.kind, Node.attrOr, Node.attrOr, Node.attr?, Node.attr?,
      same.attrs]
  · have apart := other node entry key own
    exact ⟨Node.label?_of_kind (kind ▸ apart), Node.label?_of_kind apart⟩

/-- Recording nodes makes no raw markup. -/
theorem cooked_of_holds {ε : Type} {recording : Recording ε} {before after : Node}
    {found : List ε} (held : recording.Holds before.preorder found after.preorder)
    (cooked : ∀ node ∈ before.preorder, node.kind ≠ .rawHtml)
    : ∀ node ∈ after.preorder, node.kind ≠ .rawHtml := by
  intro node member
  have among := List.mem_map_of_mem (f := Node.kind) member
  rw [held.kinds] at among
  obtain ⟨original, inside, same⟩ := List.mem_map.mp among
  exact same ▸ cooked original inside

/-- What is told of elements in one of two ways is told of them in the first way, and then in the
second, but for the order.
-/
theorem filterMap_perm {α β : Type} {pick first second : α → Option β}
    (ways
      : ∀ a, (pick a = first a ∧ second a = none) ∨ (first a = none ∧ pick a = second a))
    (elements : List α)
    : (elements.filterMap pick).Perm (elements.filterMap first ++ elements.filterMap second) := by
  induction elements with
  | nil => exact .nil
  | cons a rest ih =>
      rw [List.filterMap_cons, List.filterMap_cons, List.filterMap_cons]
      rcases ways a with ⟨same, none⟩ | ⟨none, same⟩
      · rw [same, none]
        cases first a with
        | none => exact ih
        | some b => exact ih.cons b
      · rw [same, none]
        cases second a with
        | none => exact ih
        | some b => exact (ih.cons b).trans List.perm_middle.symm

/-- The identifiers of a document with anchors are the anchors and the labels. -/
theorem identifiers_perm [Transliteration] {document : Node} (formed : document.WellFormed)
    : ((extractContents document).2.preorder.filterMap Node.identifier?).Perm
        ((extractContents document).1.map (·.id) ++ labels document) := by
  have held := holds_extractContents document
  have kept : labels (extractContents document).2 = labels document :=
    labels_of_holds held fun _ _ _ own => own.1 ▸ Kind.noConfusion
  have anchors : (extractContents document).2.preorder.filterMap
        (fun node => node.heading?.bind Prod.snd)
      = (extractContents document).1.map (·.id) := by
    have headings := congrArg (List.filterMap Prod.snd)
      (headings_of_holds held (Node.WellFormed.level document formed))
    rw [List.filterMap_filterMap, List.filterMap_map] at headings
    rw [headings]
    exact congrFun List.filterMap_eq_map _
  rw [← kept, ← anchors]
  refine filterMap_perm (fun node => ?_) _
  obtain ⟨kind, text, attrs, children⟩ := node
  cases kind with
  | heading level => exact .inl ⟨rfl, rfl⟩
  | _ => exact .inr ⟨rfl, rfl⟩

/-- The identifiers that are written are those of the nodes. -/
theorem identifiers_render {document : Node} (root : document.kind = .document)
    (formed : document.WellFormed) (cooked : ∀ node ∈ document.preorder, node.kind ≠ .rawHtml)
    : Html.identifiers (Html.render document)
      = (document.preorder.filterMap Node.identifier?).map Html.attributeValue := by
  have faithful := Html.faithful_events document formed cooked
  have written : Html.identifiers (Html.render document)
      = (identifiers document.events).map Html.attributeValue := by
    rw [Html.render, ← Node.events_of_document root]
    exact (faithful {} rfl).leads.found
  rw [written, identifiers, Node.filterMap_events Tag.identifier? formed]
  exact congrArg (fun pick => (document.preorder.filterMap pick).map Html.attributeValue)
    (funext Node.identifier?_opening)

/-- The written identifiers are different where no label is an anchor. -/
theorem nodup_identifiers_iff [Transliteration] {document : Node} (root : document.kind = .document)
    (formed : document.WellFormed) (cooked : ∀ node ∈ document.preorder, node.kind ≠ .rawHtml)
    (distinct : (labels document).Nodup)
    : (Html.identifiers (Html.render (extractContents document).2)).Nodup
      ↔ ∀ entry ∈ (extractContents document).1, entry.id ∉ labels document := by
  have written := identifiers_render ((kind_extractContents document).trans root)
    (wellFormed_extractContents formed) (cooked_of_holds (holds_extractContents document) cooked)
  have escaped (ids : List String) : (ids.map Html.attributeValue).Nodup ↔ ids.Nodup := by
    rw [List.Nodup, List.pairwise_map]
    exact ⟨fun apart => apart.imp fun other same => other (congrArg _ same),
      fun apart => apart.imp fun other same => other (Html.attributeValue_inj same)⟩
  have anchors := (sound_extractContents document).1
  rw [written, escaped, (identifiers_perm formed).nodup_iff, List.nodup_append]
  constructor
  · rintro ⟨_, _, apart⟩ entry member label
    exact apart entry.id (List.mem_map_of_mem member) entry.id label rfl
  · refine fun apart => ⟨anchors, distinct, fun id anchor label among same => ?_⟩
    obtain ⟨entry, member, rfl⟩ := List.mem_map.mp anchor
    exact apart entry member (same ▸ among)

/-- In a text without raw markup whose footnotes have different labels, the identifiers that are
written are different if and only if no label is an anchor, whether or not the references of the
text are redirected.
-/
theorem nodup_identifiers_render_iff [Transliteration] (markdown directory : String) (dir : Path)
    (cooked : ∀ node ∈ (parse markdown).preorder, node.kind ≠ .rawHtml)
    (distinct : (labels (parse markdown)).Nodup)
    : ∀ document ∈ [parse markdown, (extractResources (parse markdown) directory dir).2],
        (Html.identifiers (Html.render (extractContents document).2)).Nodup
        ↔ ∀ entry ∈ (extractContents document).1, entry.id ∉ labels (parse markdown) := by
  have root := kind_parse markdown
  have formed := wellFormed_parse markdown
  have held := holds_extractResources (parse markdown) directory dir
  have kept : labels (extractResources (parse markdown) directory dir).2
      = labels (parse markdown) := by
    refine labels_of_holds held fun node _ key own same => ?_
    have refers : referenceKey? node = some key := own.1
    simp [referenceKey?, same] at refers
  refine List.forall_mem_cons.mpr ⟨nodup_identifiers_iff root formed cooked distinct,
    List.forall_mem_singleton.mpr ?_⟩
  rw [← kept] at distinct ⊢
  exact nodup_identifiers_iff ((kind_extractResources _ directory dir).trans root)
    (wellFormed_extractResources formed directory dir) (cooked_of_holds held cooked) distinct

section

open scoped Publication.StandIns

/-- A heading and a footnote of different names have identifiers of their own. -/
theorem nodup_identifiers_note
    : (∀ node ∈ (parse "# a\n\n[^b]: c\n").preorder, node.kind ≠ .rawHtml)
      ∧ (labels (parse "# a\n\n[^b]: c\n")).Nodup
      ∧ (Html.identifiers (Html.render (extractContents (parse "# a\n\n[^b]: c\n")).2)).Nodup := by
  have cooked : ∀ node ∈ (parse "# a\n\n[^b]: c\n").preorder, node.kind ≠ .rawHtml := by
    decide +kernel
  have distinct : (labels (parse "# a\n\n[^b]: c\n")).Nodup := by decide +kernel
  have apart : ∀ entry ∈ (extractContents (parse "# a\n\n[^b]: c\n")).1,
      entry.id ∉ labels (parse "# a\n\n[^b]: c\n") := by
    decide +kernel
  refine ⟨cooked, distinct, ?_⟩
  exact (nodup_identifiers_render_iff "# a\n\n[^b]: c\n" "doc" ⟨"."⟩ cooked distinct _
    List.mem_cons_self).mpr apart

/-- A footnote whose label is the anchor of a heading has the identifier of the heading. -/
theorem not_forall_nodup_identifiers
    : ¬ ∀ markdown : String,
          (∀ node ∈ (parse markdown).preorder, node.kind ≠ .rawHtml) →
          (labels (parse markdown)).Nodup →
            (Html.identifiers (Html.render (extractContents (parse markdown)).2)).Nodup := by
  intro apart
  have cooked : ∀ node ∈ (parse "# note\n\n[^note]: x\n").preorder, node.kind ≠ .rawHtml := by
    decide +kernel
  have distinct : (labels (parse "# note\n\n[^note]: x\n")).Nodup := by decide +kernel
  have written : Html.identifiers
      (Html.render (extractContents (parse "# note\n\n[^note]: x\n")).2) = ["note", "note"] := by
    decide +kernel
  have twice := apart _ cooked distinct
  rw [written] at twice
  exact absurd twice (by decide)

end

end Document
end Publication
