import Publication.Document.Parser
import Publication.Proofs.Document.Growing
import Publication.Proofs.Document.Passes

/-! The abstract of a document is the first prose that can be seen. A paragraph of nothing but raw
markup has no text to be seen, so to pass it over loses nothing; neither what raw markup says nor
what an image is described by makes a difference.
-/

namespace Publication.Document

open Publication.Text

namespace Node

-----------------------------------------------------------------------------------------
-- Prose that can be seen
-----------------------------------------------------------------------------------------

/-- A paragraph whose text is not blank. -/
def isProse (node : Node) : Bool :=
  node.kind = .paragraph && !allBlank node.flatten.toList

variable {node : Node}

/-- Filler is blank, and so is raw markup. -/
theorem allBlank_flatten_of_filler (shaped : node.Shaped)
    (filler : node.kind = .rawHtml ∨ node.isFiller = true)
    : allBlank node.flatten.toList = true := by
  obtain ⟨kind, text, attrs, children⟩ := node
  obtain ⟨bare, silent⟩ := shaped
  dsimp only at bare silent
  cases kind with
  | rawHtml => rfl
  | softBreak | hardBreak =>
      rw [bare rfl, silent rfl]
      simp [flatten, flattenAll, allBlank, isBlank]
  | text =>
      have blank : allBlank (text.getD "").toList = true := by
        have known := filler.resolve_left Kind.noConfusion
        cases text with
        | none => rfl
        | some text => exact known
      have whole : flatten ⟨.text, text, attrs, []⟩ = text.getD "" := by
        simp [flatten, flattenAll]
      rw [bare rfl, whole]
      exact blank
  | _ => exact absurd filler (by simp [isFiller])

/-- A paragraph of raw markup and filler is blank, by induction on its children. -/
theorem allBlank_flatten_of_isRawPlaceholder (shaped : node.Throughout Shaped)
    (paragraph : node.kind = .paragraph) (raw : node.isRawPlaceholder = true)
    : allBlank node.flatten.toList = true := by
  obtain ⟨kind, text, attrs, children⟩ := node
  cases paragraph
  obtain ⟨own, below⟩ := throughout_iff.mp shaped
  obtain ⟨filled, -⟩ := Bool.and_eq_true_iff.mp raw
  have silent : text = none := own.silent rfl
  have blank : allBlank (flattenAll children).toList = true := by
    clear shaped own raw
    dsimp only at below filled
    induction children with
    | nil => rfl
    | cons child rest ih =>
        obtain ⟨first, others⟩ := List.forall_mem_cons.mp below
        rw [List.all_cons, Bool.and_eq_true, Bool.or_eq_true, decide_eq_true_eq] at filled
        rw [flattenAll, String.toList_append, allBlank, List.all_append, Bool.and_eq_true]
        exact ⟨allBlank_flatten_of_filler (throughout_iff.mp first).1 filled.1,
          ih others filled.2⟩
  have whole : flatten ⟨.paragraph, text, attrs, children⟩ = flattenAll children := by
    simp [flatten, silent]
  rw [whole]
  exact blank

/-- A node offers its text as an abstract exactly if it is prose. -/
theorem abstractOf?_eq (shaped : node.Throughout Shaped)
    : abstractOf? node = if node.isProse then some (trimmed node.flatten) else none := by
  rw [abstractOf?, isProse]
  by_cases paragraph : node.kind = .paragraph
  · simp only [isEmpty_trimmed, paragraph]
    by_cases blank : allBlank node.flatten.toList = true
    · simp [blank]
    · have shown : node.isRawPlaceholder = false := by
        refine Bool.eq_false_iff.mpr fun raw => blank ?_
        exact allBlank_flatten_of_isRawPlaceholder shaped paragraph raw
      simp [blank, shown]
  · simp [paragraph]

end Node

-----------------------------------------------------------------------------------------
-- Changes that are no matter
-----------------------------------------------------------------------------------------

/-- A node and what is left of it when an image is described in other words, or when other raw
markup is put in its place.
-/
inductive Node.Reworded (node : Node) : Node → Prop
  | kept : Reworded node node
  | described (image : node.kind = .image) (words : String)
    : Reworded node (node.setAttr "alt" words)
  | marked (raw : node.kind = .rawHtml) (markup : Option String)
    : Reworded node { node with text := markup }

theorem Node.Reworded.keepsProse {σ : Type} {visit : σ → Node → Node × σ}
    (rewords : ∀ state node, Reworded node (visit state node).1)
    : KeepsProse visit := by
  intro state node
  have one := rewords state node
  generalize (visit state node).1 = made at one ⊢
  cases one with
  | kept => exact ⟨rfl, fun _ => rfl⟩
  | described => exact ⟨rfl, fun _ => rfl⟩
  | marked raw => exact ⟨rfl, fun other => absurd raw other⟩

/-- What is offered first is offered by the first one that passes the test, if exactly those that
pass it offer anything.
-/
theorem findSome?_eq_map_find? {α β : Type} {offer : α → Option β} {test : α → Bool} {f : α → β}
    {found : List α} (offers : ∀ a ∈ found, offer a = if test a then some (f a) else none)
    : found.findSome? offer = (found.find? test).map f := by
  induction found with
  | nil => rfl
  | cons a rest ih =>
      obtain ⟨first, others⟩ := List.forall_mem_cons.mp offers
      rw [List.findSome?_cons, List.find?_cons, first]
      cases test a with
      | true => rfl
      | false => exact ih others

/-- The abstract of any text is the trimmed text of the first paragraph whose text is not blank, and
empty if there is none. Paragraphs of raw markup are blank. The abstract stays the same whatever
images are described by and whatever raw markup says.
-/
theorem abstract_parse (markdown : String)
    : abstract (parse markdown)
          = (((parse markdown).preorder.find? Node.isProse).map fun node =>
              trimmed node.flatten).getD ""
        ∧ (∀ node ∈ (parse markdown).preorder,
            node.kind = .paragraph → node.isRawPlaceholder = true →
              allBlank node.flatten.toList = true)
        ∧ ∀ {σ : Type} (visit : σ → Node → Node × σ) (state : σ),
            (∀ state node, Node.Reworded node (visit state node).1) →
              abstract ((parse markdown).revise visit state).1 = abstract (parse markdown) := by
  have shaped : ∀ node ∈ (parse markdown).preorder, node.Throughout Node.Shaped :=
    fun _ member => Node.Throughout.of_mem (parse markdown) (shaped_ofEvents _) member
  refine ⟨?_, fun node member paragraph raw => ?_, fun visit state rewords => ?_⟩
  · rw [Node.abstract_eq, findSome?_eq_map_find? fun node member =>
      Node.abstractOf?_eq (shaped node member)]
  · exact Node.allBlank_flatten_of_isRawPlaceholder (shaped node member) paragraph raw
  · exact Node.abstract_revise (Node.Reworded.keepsProse rewords) (parse markdown) state

/-- Describes each image by one word, and puts another one in the place of raw markup. -/
def redacted (state : Unit) (node : Node) : Node × Unit :=
  match node.kind with
  | .image => (node.setAttr "alt" "Hidden", state)
  | .rawHtml => ({ node with text := some "Removed" }, state)
  | _ => (node, state)

/-- A paragraph of raw markup is passed over, and what is read is the same in a redacted text. -/
theorem abstract_parse_redacted
    : let document := parse "<i></i> <b></b>\n\n![Plot](p.png) Seen <b>twice</b>.\n"
      (∃ node ∈ document.preorder, node.kind = .paragraph ∧ node.isRawPlaceholder = true)
      ∧ abstract document = "Seen twice."
      ∧ (∀ state node, Node.Reworded node (redacted state node).1)
      ∧ abstract (document.revise redacted ()).1 = "Seen twice." := by
  intro document
  obtain ⟨told, _, same⟩ :=
    abstract_parse "<i></i> <b></b>\n\n![Plot](p.png) Seen <b>twice</b>.\n"
  have first : abstract document = "Seen twice." := told.trans (by decide +kernel)
  have rewords : ∀ state node, Node.Reworded node (redacted state node).1 := by
    intro state node
    simp only [redacted]
    split
    next image => exact .described image _
    next raw => exact .marked raw _
    next => exact .kept
  exact ⟨by decide +kernel, first, rewords, (same redacted () rewords).trans first⟩

end Publication.Document
