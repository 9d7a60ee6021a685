import Publication.Markdown.Inline

/-! Well-nested sequences of events. They are the sequences that forests are written as, each by one
forest, so what holds of events that are well-nested is proved over the forest.
-/

namespace Publication.Markdown

/-- An event that opens no container and closes none. -/
def Event.isLeaf : Event → Bool
  | .start _ => false
  | .stop _ => false
  | _ => true

/-- An event that stands alone, or a container with everything in it. -/
inductive Element where
  | leaf (event : Event) (alone : event.isLeaf = true)
  | container (tag : Tag) (inner : List Element)

namespace Element

mutual

/-- The events that an element is written as. -/
def events : Element → List Event
  | .leaf event _ => [event]
  | .container tag inner => tag.around (eventsAll inner)

/-- The events of elements in order. -/
def eventsAll : List Element → List Event
  | [] => []
  | element :: rest => events element ++ eventsAll rest

end

theorem eventsAll_append (front back : List Element)
    : eventsAll (front ++ back) = eventsAll front ++ eventsAll back := by
  induction front with
  | nil => rfl
  | cons element rest ih => simp only [List.cons_append, eventsAll, ih, List.append_assoc]

theorem eventsAll_map {α : Type} {element : α → Element} {written : α → List Event}
    (same : ∀ a, (element a).events = written a) (items : List α)
    : eventsAll (items.map element) = items.flatMap written := by
  induction items with
  | nil => rfl
  | cons a rest ih => simp only [List.map_cons, eventsAll, List.flatMap_cons, same, ih]

end Element

/-- Whether the containers that are open and those that events open are closed in turn, each by its
own end.
-/
def nests : List TagEnd → List Event → Bool
  | opened, [] => opened.isEmpty
  | opened, .start tag :: rest => nests (tag.toEnd :: opened) rest
  | [], .stop _ :: _ => false
  | awaited :: outer, .stop tag :: rest => awaited = tag && nests outer rest
  | opened, _ :: rest => nests opened rest

theorem nests_leaf {event : Event} (alone : event.isLeaf = true) (opened : List TagEnd)
    (rest : List Event)
    : nests opened (event :: rest) = nests opened rest := by
  cases event with
  | start => cases alone
  | stop => cases alone
  | _ => cases opened <;> rfl

mutual

/-- An element leaves open what was open. -/
theorem nests_events : ∀ (element : Element) (opened : List TagEnd) (rest : List Event),
    nests opened (element.events ++ rest) = nests opened rest
  | .leaf event alone, opened, rest => nests_leaf alone opened rest
  | .container tag inner, opened, rest => by
      have inside := nests_eventsAll inner (tag.toEnd :: opened) (.stop tag.toEnd :: rest)
      simpa [Element.events, Tag.around, nests] using inside

/-- A forest leaves open what was open. -/
theorem nests_eventsAll : ∀ (elements : List Element) (opened : List TagEnd) (rest : List Event),
    nests opened (Element.eventsAll elements ++ rest) = nests opened rest
  | [], _, _ => rfl
  | element :: others, opened, rest => by
      rw [Element.eventsAll, List.append_assoc, nests_events element,
        nests_eventsAll others]

end

/-- Events that close what is open begin with a forest, and go on with the end of the container that
was opened last. By induction on their number, since a container that is opened among them is
followed by others.
-/
theorem exists_elements_of_nests (opened : List TagEnd) (events : List Event)
    (nested : nests opened events = true)
    : ∃ elements rest,
        events = Element.eventsAll elements ++ rest
        ∧ ((opened = [] ∧ rest = [])
          ∨ ∃ awaited outer behind,
              opened = awaited :: outer
              ∧ rest = .stop awaited :: behind
              ∧ nests outer behind = true) := by
  match events with
  | [] =>
      refine ⟨[], [], rfl, .inl ⟨?_, rfl⟩⟩
      cases opened with
      | nil => rfl
      | cons => cases nested
  | event :: later =>
      by_cases alone : event.isLeaf = true
      · rw [nests_leaf alone] at nested
        obtain ⟨elements, rest, rfl, shape⟩ := exists_elements_of_nests opened later nested
        exact ⟨.leaf event alone :: elements, rest, rfl, shape⟩
      · cases event with
        | start tag =>
            obtain ⟨inner, rest, whole, shape⟩ :=
              exists_elements_of_nests (tag.toEnd :: opened) later nested
            rcases shape with ⟨impossible, _⟩ | ⟨awaited, outer, behind, same, rfl, closed⟩
            · cases impossible
            · cases same
              have shorter : behind.length < later.length + 1 := by
                rw [whole, List.length_append, List.length_cons]
                omega
              obtain ⟨elements, rest, rfl, shape⟩ :=
                exists_elements_of_nests opened behind closed
              refine ⟨.container tag inner :: elements, rest, ?_, shape⟩
              simp [whole, Element.eventsAll, Element.events, Tag.around]
        | stop tag =>
            cases opened with
            | nil => cases nested
            | cons awaited outer =>
                simp only [nests, Bool.and_eq_true, decide_eq_true_eq] at nested
                obtain ⟨rfl, closed⟩ := nested
                exact ⟨[], _, rfl, .inr ⟨awaited, outer, later, rfl, rfl, closed⟩⟩
        | _ => exact absurd rfl alone
termination_by events.length

/-- Events are well-nested if they are those of a forest. -/
theorem nests_iff_exists_elements (events : List Event)
    : nests [] events = true ↔ ∃ elements, Element.eventsAll elements = events := by
  constructor
  · intro nested
    obtain ⟨elements, rest, whole, ⟨_, rfl⟩ | ⟨_, _, _, impossible, _⟩⟩ :=
      exists_elements_of_nests [] events nested
    · exact ⟨elements, by rw [whole, List.append_nil]⟩
    · cases impossible
  · rintro ⟨elements, rfl⟩
    have nested := nests_eventsAll elements [] []
    rwa [List.append_nil] at nested

/-- What may follow a forest: nothing, or the end of the container that it is in. -/
def Ends : List Event → Prop
  | [] => True
  | .stop _ :: _ => True
  | _ => False

/-- A forest with an element in it is not at its end. -/
theorem not_ends_events (element : Element) (rest : List Event)
    : ¬ Ends (element.events ++ rest) := by
  intro ends
  cases element with
  | container => cases ends
  | leaf event alone =>
      cases event with
      | stop => cases alone
      | _ => cases ends

mutual

/-- An element is known by its events. -/
theorem Element.events_inj : ∀ (element other : Element) (rest behind : List Event),
    element.events ++ rest = other.events ++ behind → element = other ∧ rest = behind
  | .leaf event alone, .leaf _ _, rest, behind, same => by
      obtain ⟨rfl, later⟩ := List.cons.inj same
      exact ⟨rfl, later⟩
  | .leaf event alone, .container tag inner, rest, behind, same => by
      obtain ⟨rfl, _⟩ := List.cons.inj same
      cases alone
  | .container tag inner, .leaf event alone, rest, behind, same => by
      obtain ⟨rfl, _⟩ := List.cons.inj same
      cases alone
  | .container tag inner, .container other within, rest, behind, same => by
      simp only [Element.events, Tag.around, List.cons_append, List.append_assoc,
        List.nil_append, List.cons.injEq, Event.start.injEq] at same
      obtain ⟨rfl, inside⟩ := same
      obtain ⟨rfl, later⟩ := Element.eventsAll_inj inner within (.stop tag.toEnd :: rest)
        (.stop tag.toEnd :: behind) trivial trivial inside
      exact ⟨rfl, (List.cons.inj later).2⟩

/-- A forest is known by its events. -/
theorem Element.eventsAll_inj : ∀ (elements others : List Element) (rest behind : List Event),
    Ends rest → Ends behind →
      Element.eventsAll elements ++ rest = Element.eventsAll others ++ behind →
        elements = others ∧ rest = behind
  | [], [], _, _, _, _, same => ⟨rfl, same⟩
  | [], other :: others, rest, behind, ends, _, same => by
      rw [Element.eventsAll, Element.eventsAll, List.append_assoc, List.nil_append] at same
      exact absurd (same ▸ ends) (not_ends_events other _)
  | element :: elements, [], rest, behind, _, ends, same => by
      rw [Element.eventsAll, Element.eventsAll, List.append_assoc, List.nil_append] at same
      exact absurd (same ▸ ends) (not_ends_events element _)
  | element :: elements, other :: others, rest, behind, ends, final, same => by
      simp only [Element.eventsAll, List.append_assoc] at same
      obtain ⟨rfl, further⟩ := Element.events_inj element other _ _ same
      obtain ⟨rfl, later⟩ := Element.eventsAll_inj elements others rest behind ends final further
      exact ⟨rfl, later⟩

end

/-- Events that are well-nested are those of one forest. -/
theorem exists_forest_of_nests {events : List Event} (nested : nests [] events = true)
    : ∃ elements, ∀ others, Element.eventsAll others = events ↔ others = elements := by
  obtain ⟨elements, rfl⟩ := (nests_iff_exists_elements events).mp nested
  refine ⟨elements, fun others => ⟨fun same => ?_, fun same => same ▸ rfl⟩⟩
  exact (Element.eventsAll_inj others elements [] [] trivial trivial (by rw [same])).1

-----------------------------------------------------------------------------------------
-- Inline structure
-----------------------------------------------------------------------------------------

mutual

/-- The element whose events an inline element has. -/
def Inline.element : Inline → Element
  | .text content => .leaf (.text (String.ofList content)) rfl
  | .code content => .leaf (.code (String.ofList content)) rfl
  | .math display content => .leaf (.math display (String.ofList content)) rfl
  | .html content => .leaf (.inlineHtml (String.ofList content)) rfl
  | .footnote label => .leaf (.footnoteReference (String.ofList label)) rfl
  | .softBreak => .leaf .softBreak rfl
  | .hardBreak _ => .leaf .hardBreak rfl
  | .styled style children => .container style.tag (Inline.elements children)
  | .link true kind dest title id children =>
      .container (.image kind dest title id) (Inline.elements children)
  | .link false kind dest title id children =>
      .container (.link kind dest title id) (Inline.elements children)

def Inline.elements : List Inline → List Element
  | [] => []
  | inline :: rest => Inline.element inline :: Inline.elements rest

end

mutual

theorem Inline.events_element : ∀ inline : Inline, inline.element.events = inline.events
  | .text _ | .code _ | .math _ _ | .html _ | .footnote _ | .softBreak | .hardBreak _ => rfl
  | .styled style children => congrArg style.tag.around (Inline.eventsAll_elements children)
  | .link true kind dest title id children =>
      congrArg (Tag.image kind dest title id).around (Inline.eventsAll_elements children)
  | .link false kind dest title id children =>
      congrArg (Tag.link kind dest title id).around (Inline.eventsAll_elements children)

/-- The events of inline elements are those of a forest. -/
theorem Inline.eventsAll_elements : ∀ inlines : List Inline,
    Element.eventsAll (Inline.elements inlines) = Inline.eventsAll inlines
  | [] => rfl
  | inline :: rest => by
      rw [Inline.elements, Element.eventsAll, Inline.events_element inline,
        Inline.eventsAll_elements rest, Inline.eventsAll]

end

end Publication.Markdown
