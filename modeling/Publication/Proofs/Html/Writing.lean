import Publication.Html.Writer
import Publication.Proofs.Document.Replaying
import Publication.Proofs.Html.Markup
import Publication.Proofs.Markdown.Nesting

/-! The identifiers in what is written. Outside images each event is written as whole markup, so the
identifiers of the events are those of the headings and footnotes that they begin.
-/

namespace Publication

open Publication.Markdown

/-- The identifier that a container is written with. -/
def Markdown.Tag.identifier? : Tag → Option String
  | .heading _ id _ _ => id
  | .footnoteDefinition label => some label
  | _ => none

/-- Whether a container is no image, and has no attributes that the writer is told of by name. -/
def Markdown.Tag.IsBare : Tag → Prop
  | .image _ _ _ _ => False
  | .heading _ _ classes attrs => classes = [] ∧ attrs = []
  | _ => True

/-- The identifiers of the containers that events begin. -/
def Markdown.identifiers (events : List Event) : List String :=
  events.filterMap fun event => event.opened?.bind Tag.identifier?

theorem Markdown.identifiers_append (front back : List Event)
    : Markdown.identifiers (front ++ back)
      = Markdown.identifiers front ++ Markdown.identifiers back :=
  List.filterMap_append

theorem Markdown.identifiers_around (tag : Tag) (events : List Event)
    : Markdown.identifiers (tag.around events)
      = tag.identifier?.toList ++ Markdown.identifiers events := by
  have begins : Markdown.identifiers [.start tag] = tag.identifier?.toList := by
    cases found : tag.identifier? <;> simp [Markdown.identifiers, Event.opened?, found]
  have ends : Markdown.identifiers [.stop tag.toEnd] = [] := rfl
  have whole : tag.around events = [.start tag] ++ (events ++ [.stop tag.toEnd]) := rfl
  rw [whole, Markdown.identifiers_append, Markdown.identifiers_append, begins, ends,
    List.append_nil]

namespace Html

-----------------------------------------------------------------------------------------
-- One event
-----------------------------------------------------------------------------------------

/-- A writer has written whole markup with these identifiers, and is outside images. -/
structure Clean (out : String × Writer) (ids : List String) : Prop where
  leads : Leads .text out.1 ids .text
  outside : out.2.images = []

section

variable {w : Writer} {s : String} {ids : List String}

theorem leads_nothing (place : Place) : Leads place "" [] place := ⟨rfl, rfl⟩

theorem put_fst (w : Writer) (s : String) : (w.put s).1 = s := by
  simp only [Writer.put]
  split
  next empty => exact (String.isEmpty_iff.mp empty).symm
  next => rfl

theorem images_put (w : Writer) (s : String) : (w.put s).2.images = w.images := by
  simp only [Writer.put]
  split <;> rfl

theorem clean_put (outside : w.images = []) (leads : Leads .text s ids .text)
    : Clean (w.put s) ids :=
  ⟨(put_fst w s).symm ▸ leads, (images_put w s).trans outside⟩

theorem clean_putBlock (outside : w.images = []) (leads : Leads .text s ids .text)
    : Clean (w.putBlock s) ids := by
  refine clean_put outside ?_
  split
  · exact leads
  · have feed : Leads .text "\n" [] .text := ⟨rfl, rfl⟩
    exact feed.before leads

theorem images_number (outside : w.images = []) (label : String)
    : (w.number label).2.images = [] := by
  simp only [Writer.number]
  split <;> exact outside

/-- A title is an attribute of its own. -/
theorem leads_titleAttribute (title : String)
    : Leads (.tag []) (Writer.titleAttribute title) [] (.tag []) := by
  simp only [Writer.titleAttribute]
  split
  · exact leads_nothing _
  · exact leads_valued ⟨rfl, rfl⟩ (not_mem_attributeValue (.inl rfl) title) ⟨rfl, rfl⟩

/-- A heading has no attribute but its identifier. -/
theorem exists_leads_headingAttributes (word : List Char) (id : Option String)
    : ∃ later,
        Leads (.tag word) (Writer.headingAttributes id [] []) (id.toList.map attributeValue)
          (.tag later) := by
  cases id with
  | none => exact ⟨word, rfl, rfl⟩
  | some id =>
      have whole : Writer.headingAttributes (some id) [] []
          = " id=\"" ++ attributeValue id ++ ("\"" ++ "") := by
        simp [Writer.headingAttributes]
      rw [whole]
      exact ⟨[], leads_valued ⟨rfl, rfl⟩ (not_mem_attributeValue (.inl rfl) id)
        (leads_identified _ (leads_nothing _))⟩

theorem clean_heading (outside : w.images = []) (level : Nat) (id : Option String)
    : Clean (w.start (.heading level id [] [])) (id.toList.map attributeValue) := by
  refine clean_putBlock outside ?_
  have opens : Leads .text "<h" [] (.tag ['h']) := ⟨rfl, rfl⟩
  obtain ⟨later, attributes⟩ :=
    exists_leads_headingAttributes (['h'] ++ (toString level).toList) id
  exact ((opens.before (leads_number _ level)).before attributes).behind ⟨rfl, rfl⟩

theorem clean_footnoteDefinition (outside : w.images = []) (label : String)
    : Clean (w.start (.footnoteDefinition label)) [attributeValue label] := by
  refine clean_putBlock (images_number outside label) ?_
  have closes : Leads (.tag []) "><sup class=\"footnote-definition-label\">" [] .text := ⟨rfl, rfl⟩
  have opens : Leads .text "<div class=\"footnote-definition\" id=\"" []
      (.value "id=".toList []) :=
    ⟨rfl, rfl⟩
  have value := leads_valued opens (not_mem_attributeValue (.inl rfl) label)
    (leads_identified _ closes)
  have number : Leads .text (toString (w.number label).1) [] .text :=
    leads_text (Naming.not_mem_toString rfl)
  exact (value.behind number).behind ⟨rfl, rfl⟩

theorem clean_codeBlock (outside : w.images = []) (kind : CodeKind)
    : Clean (w.start (.codeBlock kind)) [] := by
  refine clean_putBlock outside ?_
  cases kind with
  | indented => exact ⟨rfl, rfl⟩
  | fenced info =>
      simp only [Writer.codeStart]
      split
      · exact ⟨rfl, rfl⟩
      · exact leads_valued ⟨rfl, rfl⟩ (not_mem_attributeValue (.inl rfl) _) ⟨rfl, rfl⟩

theorem clean_list (outside : w.images = []) (first : Option Nat)
    : Clean (w.start (.list first)) [] := by
  have numbered (n : Nat) : Leads .text ("<ol start=\"" ++ toString n ++ "\">\n") [] .text :=
    leads_valued ⟨rfl, rfl⟩ (Naming.not_mem_toString rfl) ⟨rfl, rfl⟩
  -- A list that starts at one is written without its number.
  rcases first with _ | _ | _ | first
  · exact clean_putBlock outside ⟨rfl, rfl⟩
  · exact clean_putBlock outside (numbered 0)
  · exact clean_putBlock outside ⟨rfl, rfl⟩
  · exact clean_putBlock outside (numbered (first + 2))

theorem clean_tableCell (outside : w.images = []) : Clean (w.start .tableCell) [] := by
  refine clean_put outside ?_
  simp only [Writer.cellStyle]
  split <;> split <;> exact ⟨rfl, rfl⟩

theorem clean_link (outside : w.images = []) (kind : LinkKind) (dest title id : String)
    : Clean (w.start (.link kind dest title id)) [] := by
  refine clean_put outside ?_
  have opens : Leads .text ("<a href=\"" ++ (if kind = .email then "mailto:" else "")) []
      (.value "href=".toList (if kind = .email then "mailto:" else "").toList) := by
    split <;> exact ⟨rfl, rfl⟩
  have closes (read : List Char) : Leads (.value "href=".toList read) "\"" [] (.tag []) :=
    ⟨rfl, rfl⟩
  have value := leads_valued opens (not_mem_reference dest) (closes _)
  exact (value.before (leads_titleAttribute title)).behind ⟨rfl, rfl⟩

/-- What begins a container is whole markup with the identifier of the container. -/
theorem clean_start (outside : w.images = []) {tag : Tag} (bare : tag.IsBare)
    : Clean (w.start tag) (tag.identifier?.toList.map attributeValue) := by
  cases tag with
  | image => exact absurd bare id
  | paragraph | definitionList | definitionTitle | definitionDetails | item =>
      exact clean_putBlock outside ⟨rfl, rfl⟩
  | table | tableHead | tableRow | emphasis | strong | strikethrough =>
      exact clean_put outside ⟨rfl, rfl⟩
  | heading level id classes attrs =>
      obtain ⟨rfl, rfl⟩ := bare
      exact clean_heading outside level id
  | blockQuote kind =>
      rcases kind with _ | kind
      · exact clean_putBlock outside ⟨rfl, rfl⟩
      · cases kind <;> exact clean_putBlock outside ⟨rfl, rfl⟩
  | codeBlock kind => exact clean_codeBlock outside kind
  | htmlBlock => exact ⟨leads_nothing _, outside⟩
  | list first => exact clean_list outside first
  | footnoteDefinition label => exact clean_footnoteDefinition outside label
  | tableCell => exact clean_tableCell outside
  | link kind dest title id => exact clean_link outside kind dest title id

/-- What ends a container is whole markup. -/
theorem clean_stop (outside : w.images = []) (tag : TagEnd) : Clean (w.stop tag) [] := by
  cases tag with
  | heading level =>
      refine clean_put outside ?_
      have opens : Leads .text "</h" [] (.tag ['h']) := ⟨rfl, rfl⟩
      exact (opens.before (leads_number _ level)).behind ⟨rfl, rfl⟩
  | list ordered => cases ordered <;> exact clean_put outside ⟨rfl, rfl⟩
  | tableCell =>
      have cell : Clean (w.put (if w.inTableHead then "</th>" else "</td>")) [] := by
        split <;> exact clean_put outside ⟨rfl, rfl⟩
      exact ⟨cell.leads, cell.outside⟩
  | htmlBlock | image => exact ⟨leads_nothing _, outside⟩
  | _ => exact clean_put outside ⟨rfl, rfl⟩

/-- What stands alone is whole markup, unless it is raw. -/
theorem clean_leaf (outside : w.images = []) {event : Event} (alone : event.isLeaf = true)
    (cooked : ∀ text, event ≠ .html text ∧ event ≠ .inlineHtml text)
    : Clean (w.step event) [] := by
  simp only [Writer.step, outside]
  cases event with
  | start | stop => cases alone
  | html text => exact absurd rfl (cooked text).1
  | inlineHtml text => exact absurd rfl (cooked text).2
  | text text => exact ⟨leads_text (not_mem_content text), outside⟩
  | code text =>
      refine clean_put outside ?_
      have opens : Leads .text "<code>" [] .text := ⟨rfl, rfl⟩
      exact (opens.before (leads_text (not_mem_content text))).behind ⟨rfl, rfl⟩
  | math display text =>
      refine clean_put outside ?_
      have opens : Leads .text ("<span class=\"math math-"
          ++ (if display then "display" else "inline") ++ "\">") [] .text := by
        split <;> exact ⟨rfl, rfl⟩
      have shown := leads_text (not_mem_attributeValue (.inr rfl) text)
      exact (opens.before shown).behind ⟨rfl, rfl⟩
  | footnoteReference label =>
      refine clean_put (images_number outside label) ?_
      have opens : Leads .text "<sup class=\"footnote-reference\"><a href=\"#" []
          (.value "href=".toList ['#']) :=
        ⟨rfl, rfl⟩
      have closes (read : List Char) : Leads (.value "href=".toList read) "\">" [] .text :=
        ⟨rfl, rfl⟩
      have value := leads_valued opens (not_mem_attributeValue (.inl rfl) label) (closes _)
      have number : Leads .text (toString (w.number label).1) [] .text :=
        leads_text (Naming.not_mem_toString rfl)
      exact (value.before number).behind ⟨rfl, rfl⟩
  | rule => exact clean_putBlock outside ⟨rfl, rfl⟩
  | taskMarker checked =>
      refine clean_put outside ?_
      split <;> exact ⟨rfl, rfl⟩
  | _ => exact clean_put outside ⟨rfl, rfl⟩

end

-----------------------------------------------------------------------------------------
-- Events in order
-----------------------------------------------------------------------------------------

/-- The writer behind events. -/
def Writer.after (w : Writer) (events : List Event) : Writer :=
  events.foldl (fun w event => (w.step event).2) w

theorem pieces_cons (w : Writer) (event : Event) (rest : List Event)
    : w.pieces (event :: rest) = (w.step event).1 :: (w.step event).2.pieces rest :=
  rfl

theorem pieces_append (w : Writer) (front back : List Event)
    : w.pieces (front ++ back) = w.pieces front ++ (w.after front).pieces back := by
  induction front generalizing w with
  | nil => rfl
  | cons event front ih => exact congrArg (_ :: ·) (ih (w.step event).2)

/-- Events that are written as whole markup with these identifiers, outside images. -/
def Whole (events : List Event) (ids : List String) : Prop :=
  ∀ w : Writer, w.images = [] → Clean (String.join (w.pieces events), w.after events) ids

theorem whole_nil : Whole [] [] := fun _ outside => ⟨leads_nothing _, outside⟩

theorem Whole.append {front back : List Event} {ids later : List String}
    (first : Whole front ids) (second : Whole back later)
    : Whole (front ++ back) (ids ++ later) := by
  intro w outside
  obtain ⟨leads, between⟩ := first w outside
  obtain ⟨goes, behind⟩ := second (w.after front) between
  refine ⟨?_, ?_⟩
  · rw [pieces_append, String.join_append]
    exact leads.append goes
  · rw [Writer.after, List.foldl_append]
    exact behind

theorem whole_single {event : Event} {ids : List String}
    (clean : ∀ w : Writer, w.images = [] → Clean (w.step event) ids)
    : Whole [event] ids := by
  intro w outside
  obtain ⟨leads, behind⟩ := clean w outside
  refine ⟨?_, behind⟩
  have alone : w.pieces [event] = [(w.step event).1] := rfl
  rw [alone, String.join_cons, String.join_nil, String.append_empty]
  exact leads

theorem whole_leaf {event : Event} (alone : event.isLeaf = true)
    (cooked : ∀ text, event ≠ .html text ∧ event ≠ .inlineHtml text)
    : Whole [event] [] :=
  whole_single fun _ outside => clean_leaf outside alone cooked

/-- A container is written with its identifier before those of what is in it. -/
theorem Whole.around {events : List Event} {ids : List String} (inside : Whole events ids)
    {tag : Tag} (bare : tag.IsBare)
    : Whole (tag.around events) (tag.identifier?.toList.map attributeValue ++ ids) := by
  have opens : Whole [.start tag] (tag.identifier?.toList.map attributeValue) :=
    whole_single fun w outside => by
      rw [Writer.step, outside]
      exact clean_start outside bare
  have closes : Whole [.stop tag.toEnd] [] :=
    whole_single fun w outside => by
      rw [Writer.step, outside]
      exact clean_stop outside tag.toEnd
  have whole := (opens.append inside).append closes
  rw [List.append_nil] at whole
  exact whole

/-- What ends an image is the rest of its tag. -/
theorem pieces_stop_image {w : Writer} {title : String} (inside : w.images = [title])
    : w.pieces [.stop .image] = ["\"" ++ Writer.titleAttribute title ++ " />"]
      ∧ (w.after [.stop .image]).images = [] := by
  have ends : w.step (.stop .image)
      = { w with images := [] }.put ("\"" ++ Writer.titleAttribute title ++ " />") := by
    simp only [Writer.step, inside, Writer.stepInImage]
  constructor
  · rw [pieces_cons, ends, put_fst]
    rfl
  · exact (congrArg (·.2.images) ends).trans (images_put _ _)

/-- The description of an image goes into its tag. -/
theorem pieces_described {w : Writer} {title : String} (inside : w.images = [title]) (alt : String)
    : String.join (w.pieces ((if alt.isEmpty then [] else [.text alt]) ++ [.stop .image]))
        = attributeValue alt ++ ("\"" ++ Writer.titleAttribute title ++ " />")
      ∧ (w.after ((if alt.isEmpty then [] else [.text alt]) ++ [.stop .image])).images = [] := by
  split
  next empty =>
      obtain ⟨rest, behind⟩ := pieces_stop_image inside
      rw [String.isEmpty_iff.mp empty, List.nil_append, rest]
      exact ⟨by simp [attributeValue], behind⟩
  next =>
      have described : w.step (.text alt) = w.putText alt (attributeValue alt) := by
        simp only [Writer.step, inside, Writer.stepInImage]
      have still : (w.step (.text alt)).2.images = [title] := by
        rw [described]
        exact inside
      obtain ⟨rest, behind⟩ := pieces_stop_image still
      rw [List.singleton_append, pieces_cons, rest, described]
      exact ⟨by simp [Writer.putText], behind⟩

/-- An image is one tag, which ends behind its description. -/
theorem whole_image (kind : LinkKind) (dest title id alt : String)
    : Whole ((Tag.image kind dest title id).around (if alt.isEmpty then [] else [.text alt]))
        [] := by
  intro w outside
  have begins : w.step (.start (.image kind dest title id))
      = ("<img src=\"" ++ reference dest ++ "\" alt=\"",
        { (w.put ("<img src=\"" ++ reference dest ++ "\" alt=\"")).2 with
          images :=
            title :: (w.put ("<img src=\"" ++ reference dest ++ "\" alt=\"")).2.images }) := by
    simp only [Writer.step, outside, Writer.start, put_fst]
  have inside : (w.step (.start (.image kind dest title id))).2.images = [title] := by
    rw [begins, images_put, outside]
  obtain ⟨rest, behind⟩ := pieces_described inside alt
  refine ⟨?_, behind⟩
  have whole : String.join (w.pieces ((Tag.image kind dest title id).around
      (if alt.isEmpty then [] else [.text alt])))
      = "<img src=\"" ++ reference dest ++ "\" alt=\"" ++ attributeValue alt
        ++ ("\"" ++ Writer.titleAttribute title ++ " />") := by
    rw [Tag.around, List.cons_append, pieces_cons, String.join_cons, String.append_assoc, ← rest,
      begins]
    rfl
  rw [whole]
  have source (read : List Char)
      : Leads (.value "src=".toList read) "\" alt=\"" [] (.value "alt=".toList []) :=
    ⟨rfl, rfl⟩
  have opens : Leads .text ("<img src=\"" ++ reference dest ++ "\" alt=\"") []
      (.value "alt=".toList []) :=
    leads_valued ⟨rfl, rfl⟩ (not_mem_reference dest) (source _)
  have quote (read : List Char) : Leads (.value "alt=".toList read) "\"" [] (.tag []) := ⟨rfl, rfl⟩
  have closes (read : List Char) : Leads (.value "alt=".toList read)
      ("\"" ++ Writer.titleAttribute title ++ " />") [] .text :=
    ((quote read).before (leads_titleAttribute title)).before ⟨rfl, rfl⟩
  exact leads_valued opens (not_mem_attributeValue (.inl rfl) alt) (closes _)

end Html
end Publication
