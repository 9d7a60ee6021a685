import Publication.Markdown.Inline.Reader

/-! Text without images. Only a bracket behind an exclamation mark begins an image, so none is read
where there is no such bracket.
-/

namespace Publication.Markdown

-----------------------------------------------------------------------------------------
-- Events
-----------------------------------------------------------------------------------------

/-- Whether an event begins an image. -/
def Event.beginsImage : Event → Bool
  | .start (.image _ _ _ _) => true
  | _ => false

/-- Events none of which begins an image. -/
def Imageless (events : List Event) : Prop := ∀ event ∈ events, event.beginsImage = false

theorem imageless_append_iff {front back : List Event}
    : Imageless (front ++ back) ↔ Imageless front ∧ Imageless back :=
  List.forall_mem_append

theorem imageless_singleton {event : Event} (other : event.beginsImage = false)
    : Imageless [event] :=
  fun _ member => List.mem_singleton.mp member ▸ other

theorem Imageless.around {tag : Tag} (other : (Event.start tag).beginsImage = false)
    {inner : List Event} (imageless : Imageless inner)
    : Imageless (tag.around inner) := by
  have opened : Imageless (.start tag :: inner) := by
    intro event member
    rcases List.mem_cons.mp member with rfl | member
    · exact other
    · exact imageless event member
  exact imageless_append_iff.mpr ⟨opened, imageless_singleton rfl⟩

namespace Inline

/-- Inline elements without images. -/
def AllImageless (inlines : List Inline) : Prop := ∀ inline ∈ inlines, Imageless inline.events

theorem imageless_eventsAll {inlines : List Inline} (all : AllImageless inlines)
    : Imageless (eventsAll inlines) := by
  induction inlines with
  | nil => exact List.forall_mem_nil _
  | cons inline rest ih =>
      rw [eventsAll]
      exact imageless_append_iff.mpr ⟨all inline List.mem_cons_self,
        ih fun other member => all other (List.mem_cons_of_mem _ member)⟩

theorem AllImageless.cons {inline : Inline} (first : Imageless inline.events)
    {rest : List Inline} (others : AllImageless rest)
    : AllImageless (inline :: rest) :=
  List.forall_mem_cons.mpr ⟨first, others⟩

theorem AllImageless.append {front back : List Inline} (first : AllImageless front)
    (second : AllImageless back)
    : AllImageless (front ++ back) :=
  List.forall_mem_append.mpr ⟨first, second⟩

theorem AllImageless.reverse {inlines : List Inline} (all : AllImageless inlines)
    : AllImageless inlines.reverse :=
  fun inline member => all inline (List.mem_reverse.mp member)

theorem imageless_text (content : List Char) : Imageless (text content).events :=
  imageless_singleton rfl

end Inline

-----------------------------------------------------------------------------------------
-- Emphasis
-----------------------------------------------------------------------------------------

/-- A piece without images. -/
def Piece.Clear : Piece → Prop
  | .element inline => Imageless inline.events
  | .run _ => True

namespace Emphasis

open Publication.Markdown.Inline (AllImageless imageless_text imageless_eventsAll)

/-- A pairing without images, before the openers and behind them. -/
structure State.Clear (s : State) : Prop where
  current : AllImageless s.current
  openers : ∀ o ∈ s.openers, AllImageless o.before

theorem imageless_marks (mark : Char) (count : Nat) : AllImageless (marks mark count) := by
  intro inline member
  rw [List.eq_of_mem_replicate member]
  exact imageless_text [mark]

section

variable {s : State}

theorem clear_giveUp (clear : s.Clear) (n : Nat) : (giveUp n s).Clear := by
  induction n generalizing s with
  | zero => exact clear
  | succ n ih =>
      rw [giveUp]
      split
      · exact clear
      next o rest found =>
          have openers := clear.openers
          rw [found] at openers
          refine ih ⟨?_, fun other member => openers other (List.mem_cons_of_mem _ member)⟩
          exact (clear.current.append (imageless_marks _ _)).append (openers o List.mem_cons_self)

theorem imageless_wrap {mark : Char} {count : Nat} {inner : List Inline}
    (imageless : AllImageless inner)
    : AllImageless (wrap mark count inner) := by
  have styled (double : Bool) {inner : List Inline} (imageless : AllImageless inner)
      : AllImageless [.styled (style mark double) inner] := by
    intro inline member
    rw [List.mem_singleton.mp member]
    have other : (Event.start (style mark double).tag).beginsImage = false := by
      cases style mark double <;> rfl
    exact Imageless.around other (imageless_eventsAll imageless)
  fun_induction wrap mark count inner with
  | case1 inner => exact imageless
  | case2 inner => exact styled false imageless
  | case3 inner count ih => exact ih (styled true imageless)

/-- What is paired are elements that are there, by induction on the fuel. -/
theorem clear_closeRun (clear : s.Clear) (close : Run) (both : Bool) (fuel count : Nat)
    : (closeRun close both fuel s count).1.Clear := by
  induction fuel generalizing s count with
  | zero => exact clear
  | succ fuel ih =>
      cases count with
      | zero => exact clear
      | succ count =>
          simp only [closeRun]
          split
          · exact ⟨clear.current, clear.openers⟩
          next depth found =>
              have given := clear_giveUp clear depth
              split
              · exact given
              next o rest opened =>
                  have openers := given.openers
                  rw [opened] at openers
                  have wrapped (used : Nat)
                      : AllImageless (wrap o.mark used (giveUp depth s).current.reverse) :=
                    imageless_wrap given.current.reverse
                  refine ih ?_ _
                  split
                  · exact ⟨wrapped _, List.forall_mem_cons.mpr (List.forall_mem_cons.mp openers)⟩
                  · exact ⟨(wrapped _).append (openers o List.mem_cons_self),
                      fun other member => openers other (List.mem_cons_of_mem _ member)⟩

theorem clear_step (clear : s.Clear) {piece : Piece} (plain : piece.Clear)
    : (step s piece).Clear := by
  cases piece with
  | element inline => exact ⟨.cons plain clear.current, clear.openers⟩
  | run run =>
      have closed : (if run.canClose then
          closeRun run (run.canOpen && run.canClose) (run.width + 1) s run.width
          else (s, run.width)).1.Clear := by
        split
        · exact clear_closeRun clear _ _ _ _
        · exact clear
      simp only [step]
      generalize (if run.canClose = true then
          closeRun run (run.canOpen && run.canClose) (run.width + 1) s run.width
          else (s, run.width)) = paired at closed ⊢
      split
      · exact closed
      · split
        · exact ⟨List.forall_mem_nil _, List.forall_mem_cons.mpr ⟨closed.current, closed.openers⟩⟩
        · exact ⟨(imageless_marks _ _).append closed.current, closed.openers⟩

end

theorem imageless_finishBreak {inlines : List Inline} (imageless : AllImageless inlines)
    : AllImageless (finishBreak inlines) := by
  simp only [finishBreak]
  split
  next before => exact .cons (imageless_text _) (List.forall_mem_cons.mp imageless).2
  next => exact imageless

/-- Pieces without images are without them when they are emphasized. -/
theorem imageless_resolve {pieces : List Piece} (plain : ∀ piece ∈ pieces, piece.Clear)
    : AllImageless (resolve pieces) := by
  have paired (s : State) (clear : s.Clear) : (pieces.foldl step s).Clear := by
    induction pieces generalizing s with
    | nil => exact clear
    | cons piece rest ih =>
        exact ih (fun other member => plain other (List.mem_cons_of_mem _ member)) _
          (clear_step clear (plain piece List.mem_cons_self))
  have start : ({} : State).Clear := ⟨List.forall_mem_nil _, List.forall_mem_nil _⟩
  exact (imageless_finishBreak (clear_giveUp (paired {} start) _).current).reverse

end Emphasis

-----------------------------------------------------------------------------------------
-- Reading tokens
-----------------------------------------------------------------------------------------

namespace InlineReader

open Publication.Markdown.Inline (AllImageless imageless_text imageless_eventsAll)

/-- An item without images: it is no image, and no bracket that could begin one. -/
def Item.Clear : Item → Prop
  | .piece p => p.Clear
  | .bracket image _ _ => image = false

/-- Tokens that begin no image. -/
def BeginsNone (tokens : List Token) : Prop := ∀ token ∈ tokens, token.mark ≠ .bracket true

section

variable {tokens rest behind : List Token} {token last : Token} {items before : List Item}

theorem beginsNone_tokensFrom (shut : BeginsNone tokens) (pos : Nat)
    : BeginsNone (tokensFrom pos tokens) := by
  induction tokens with
  | nil => exact shut
  | cons token rest ih =>
      have others : BeginsNone rest := fun other member =>
        shut other (List.mem_cons_of_mem _ member)
      simp only [tokensFrom]
      split
      · exact ih others
      · split
        · exact List.forall_mem_cons.mpr ⟨shut token List.mem_cons_self, others⟩
        · exact shut

theorem mem_of_closingTicks {width : Nat} (found : closingTicks width tokens = some (last, behind))
    {token : Token} (member : token ∈ behind)
    : token ∈ tokens := by
  induction tokens with
  | nil => cases found
  | cons first rest ih =>
      simp only [closingTicks] at found
      split at found
      · split at found
        · cases found
          exact List.mem_cons_of_mem _ member
        · exact List.mem_cons_of_mem _ (ih found)
      · exact List.mem_cons_of_mem _ (ih found)

theorem mem_of_closingDollar {display : Bool} {group : Nat}
    (found : closingDollar display group tokens = some (last, behind)) {token : Token}
    (member : token ∈ behind)
    : token ∈ tokens := by
  induction tokens with
  | nil => cases found
  | cons first rest ih =>
      simp only [closingDollar] at found
      split at found
      · split at found
        · obtain ⟨_, same⟩ := Option.ite_none_right_eq_some.mp found
          cases same
          exact List.mem_cons_of_mem _ member
        · exact List.mem_cons_of_mem _ (ih found)
      · exact List.mem_cons_of_mem _ (ih found)

/-- A formula is no image, and what is behind it was there. -/
theorem imageless_formula {canOpen : Bool} {group : Nat} {element : Inline}
    (found : formula? token canOpen group rest = some (element, behind))
    : Imageless element.events ∧ ∀ other ∈ behind, other ∈ rest := by
  simp only [formula?] at found
  split at found
  · cases found
  · split at found
    next second inner =>
        split at found
        · obtain ⟨⟨last, left⟩, closed, ended⟩ := Option.map_eq_some_iff.mp found
          cases ended
          refine ⟨imageless_singleton rfl, fun other member => List.mem_cons_of_mem _ ?_⟩
          exact mem_of_closingDollar closed (List.mem_of_mem_tail member)
        · obtain ⟨⟨last, left⟩, closed, ended⟩ := Option.map_eq_some_iff.mp found
          cases ended
          exact ⟨imageless_singleton rfl, fun other member => mem_of_closingDollar closed member⟩
    next => cases found

theorem imageless_autolink {s : List Char} {element : Inline} {n : Nat}
    (found : autolink? s = some (element, n))
    : Imageless element.events := by
  have link (kind : LinkKind) (n : Nat)
      : Imageless
          (Inline.link false kind (String.ofList (s.take n)) "" "" [.text (s.take n)]).events := by
    refine Imageless.around rfl (imageless_eventsAll fun inline member => ?_)
    rw [List.mem_singleton.mp member]
    exact imageless_text _
  simp only [autolink?] at found
  rcases Option.or_eq_some_iff.mp found with found | ⟨_, found⟩
  all_goals
    obtain ⟨m, _, same⟩ := Option.map_eq_some_iff.mp found
    cases same
    exact link _ _

/-- Items without images are without them on both sides of a bracket, which begins none. -/
theorem clear_splitAtBracket {inner behind : List Piece} {image active : Bool}
    {source : List Char} (clear : ∀ item ∈ items, item.Clear)
    (plain : ∀ piece ∈ behind, piece.Clear)
    (split : splitAtBracket behind items = some (inner, (image, active, source), before))
    : image = false ∧ (∀ piece ∈ inner, piece.Clear) ∧ ∀ item ∈ before, item.Clear := by
  induction items generalizing behind with
  | nil => cases split
  | cons item items ih =>
      obtain ⟨own, others⟩ := List.forall_mem_cons.mp clear
      cases item with
      | piece p => exact ih others (List.forall_mem_cons.mpr ⟨own, plain⟩) split
      | bracket =>
          cases split
          exact ⟨own, plain, others⟩

theorem clear_deactivateLinks (clear : ∀ item ∈ items, item.Clear)
    : ∀ item ∈ deactivateLinks items, item.Clear := by
  intro item member
  obtain ⟨old, inside, rfl⟩ := List.mem_map.mp member
  have own := clear old inside
  split
  · exact rfl
  · exact own

theorem Item.Clear.toPiece {item : Item} (clear : item.Clear) : item.toPiece.Clear := by
  cases item with
  | piece p => exact clear
  | bracket image active source =>
      cases image <;> exact imageless_text _

theorem clear_settleBrackets (clear : ∀ item ∈ items, item.Clear)
    : ∀ item ∈ settleBrackets items, item.Clear := by
  intro item member
  obtain ⟨old, inside, rfl⟩ := List.mem_map.mp member
  exact (clear old inside).toPiece

/-- A closing bracket makes no image where none has begun. -/
theorem clear_closeBracket (clear : ∀ item ∈ items, item.Clear) (refs : References)
    (token : Token)
    : ∀ item ∈ (closeBracket refs token items).1, item.Clear := by
  have text (content : List Char) : (Item.ofInline (.text content)).Clear := imageless_text content
  simp only [closeBracket]
  split
  · exact List.forall_mem_cons.mpr ⟨text _, clear⟩
  next inner image active source before split =>
      obtain ⟨rfl, plain, others⟩ :=
        clear_splitAtBracket clear (List.forall_mem_nil _) split
      have failed : ∀ item ∈ Item.ofInline (.text [']'])
          :: ((inner.map Item.piece).reverse ++ Item.ofInline (bracketText false) :: before),
          item.Clear := by
        refine List.forall_mem_cons.mpr ⟨text _, List.forall_mem_append.mpr ⟨?_, ?_⟩⟩
        · intro item member
          obtain ⟨piece, inside, rfl⟩ := List.mem_map.mp (List.mem_reverse.mp member)
          exact plain piece inside
        · exact List.forall_mem_cons.mpr ⟨text _, others⟩
      have linked (kind : LinkKind) (dest title id : String)
          : ∀ item ∈ Item.ofInline (.link false kind dest title id (Emphasis.resolve inner))
              :: deactivateLinks before, item.Clear := by
        refine List.forall_mem_cons.mpr ⟨?_, clear_deactivateLinks others⟩
        exact Imageless.around rfl (imageless_eventsAll (Emphasis.imageless_resolve plain))
      split
      · exact failed
      · split
        · exact linked _ _ _ _
        · split
          · split
            · refine List.forall_mem_cons.mpr ⟨imageless_singleton rfl, ?_⟩
              exact clear_settleBrackets others
            · exact failed
          · split
            · exact linked _ _ _ _
            · exact failed
          · exact failed

/-- A span of code is no image, nor is the tick that is left before it when that is escaped. -/
theorem clear_codeSpan (clear : ∀ item ∈ items, item.Clear) (content : List Char) (escaped : Bool)
    : ∀ item ∈
        (if escaped then
          Item.ofInline (.code content) :: Item.ofInline (.text ['\x60']) :: items
        else Item.ofInline (.code content) :: items),
        item.Clear := by
  have code : (Item.ofInline (.code content)).Clear := imageless_singleton rfl
  cases escaped with
  | true =>
      exact List.forall_mem_cons.mpr
        ⟨code, List.forall_mem_cons.mpr ⟨imageless_text _, clear⟩⟩
  | false => exact List.forall_mem_cons.mpr ⟨code, clear⟩

/-- Where no token begins an image, nothing that is read is one, by induction on the fuel. -/
theorem clear_readFrom (refs : References) (fuel : Nat) (shut : BeginsNone tokens)
    (clear : ∀ item ∈ items, item.Clear)
    : ∀ item ∈ readFrom refs fuel tokens items, item.Clear := by
  induction fuel generalizing tokens items with
  | zero => exact clear
  | succ fuel ih =>
      cases tokens with
      | nil => exact clear
      | cons token rest =>
          obtain ⟨own, others⟩ := List.forall_mem_cons.mp shut
          have keep {element : Inline} (plain : Imageless element.events)
              : ∀ item ∈ readFrom refs fuel rest (Item.ofInline element :: items), item.Clear :=
            ih others (List.forall_mem_cons.mpr ⟨plain, clear⟩)
          simp only [readFrom]
          split
          · exact keep (imageless_text _)
          · exact keep (imageless_text _)
          · exact keep (imageless_singleton rfl)
          · exact keep (imageless_singleton rfl)
          · exact ih others (List.forall_mem_cons.mpr ⟨trivial, clear⟩)
          · split
            next last behind found =>
                have closed := (Option.ite_none_left_eq_some.mp found).2
                exact ih (fun other member => others other (mem_of_closingTicks closed member))
                  (clear_codeSpan clear _ _)
            · exact keep (imageless_text _)
          · split
            next element behind found =>
                obtain ⟨plain, inside⟩ := imageless_formula found
                exact ih (fun other member => others other (inside other member))
                  (List.forall_mem_cons.mpr ⟨plain, clear⟩)
            · exact keep (imageless_text _)
          · split
            next element n found =>
                have plain := imageless_autolink (Option.ite_none_left_eq_some.mp found).2
                exact ih (beginsNone_tokensFrom others _) (List.forall_mem_cons.mpr ⟨plain, clear⟩)
            · split
              · exact ih (beginsNone_tokensFrom others _)
                  (List.forall_mem_cons.mpr ⟨imageless_singleton rfl, clear⟩)
              · exact keep (imageless_text _)
          next image mark =>
              have link : image = false := by
                cases image with
                | false => rfl
                | true => exact absurd mark own
              exact ih others (List.forall_mem_cons.mpr ⟨link, clear⟩)
          · exact ih (beginsNone_tokensFrom others _) (clear_closeBracket clear refs token)

end

end InlineReader

-----------------------------------------------------------------------------------------
-- Tokens
-----------------------------------------------------------------------------------------

/-- Text without the mark that images begin with. -/
def Markless (s : List Char) : Prop := ¬ ['!', '['] <:+: s

theorem Markless.drop {s : List Char} (markless : Markless s) (n : Nat) : Markless (s.drop n) :=
  fun inside => markless (inside.trans (List.drop_suffix n s).isInfix)

theorem Markless.unmarked {c : Char} {rest : List Char} (markless : Markless (c :: rest))
    : ¬ (c == '!' && rest.head? == some '[') = true := by
  intro mark
  simp only [Bool.and_eq_true, beq_iff_eq] at mark
  obtain ⟨more, rfl⟩ := List.head?_eq_some_iff.mp mark.2
  refine absurd ⟨[], more, ?_⟩ markless
  rw [mark.1]
  rfl

namespace Token

open Publication.Markdown.InlineReader (BeginsNone)

theorem beginsNone_pending (p : Place) : BeginsNone p.pending := by
  intro token member
  simp only [Place.pending] at member
  split at member
  · rw [List.mem_singleton.mp member]
    exact Mark.noConfusion
  · cases member

theorem beginsNone_ite {condition : Prop} [Decidable condition] {first second : List Token}
    (yes : BeginsNone first) (no : BeginsNone second)
    : BeginsNone (if condition then first else second) := by
  split
  · exact yes
  · exact no

/-- Text without the mark has no token that begins an image, by induction on the fuel. -/
theorem beginsNone_readFrom (fuel : Nat) (p : Place) {s : List Char} (markless : Markless s)
    : BeginsNone (readFrom fuel p s) := by
  induction fuel generalizing p s with
  | zero => exact beginsNone_pending _
  | succ fuel ih =>
      cases s with
      | nil => exact beginsNone_pending _
      | cons c rest =>
          have later (q : Place) (n : Nat) : BeginsNone (readFrom fuel q ((c :: rest).drop n)) :=
            ih q (markless.drop n)
          have one {mark : Mark} (other : mark ≠ .bracket true) (front : Place)
              (start stop : Nat) (source : List Char) (q : Place) (n : Nat)
              : BeginsNone (front.pending
                  ++ ⟨mark, start, stop, source⟩ :: readFrom fuel q ((c :: rest).drop n)) :=
            List.forall_mem_append.mpr
              ⟨beginsNone_pending front, List.forall_mem_cons.mpr ⟨other, later q n⟩⟩
          rw [readFrom.eq_def]
          dsimp -zeta only
          extract_lets whole emit pass
          have emitted {mark : Mark} (other : mark ≠ .bracket true) (n : Nat)
              : BeginsNone (emit mark n) :=
            one other p _ _ _ _ n
          have passed (n : Nat) : BeginsNone (pass n) := later _ n
          rw [if_neg markless.unmarked]
          have broken : (if 2 ≤ p.trimmed.2 then Mark.hardBreak false else .softBreak)
              ≠ .bracket true := by
            split <;> exact Mark.noConfusion
          refine beginsNone_ite ?_ (beginsNone_ite ?_ ?_)
          · exact beginsNone_ite (one Mark.noConfusion { p with pos := p.pos - 1 } _ _ _ _ _)
              (one broken { p with pos := p.pos - p.trimmed.2 } _ _ _ _ _)
          · cases rest with
            | nil => exact passed 1
            | cons d more =>
                refine beginsNone_ite
                  (beginsNone_ite (one Mark.noConfusion p _ _ _ _ _) ?_) (passed 1)
                exact List.forall_mem_append.mpr ⟨beginsNone_pending p, ih _ (markless.drop 2)⟩
          -- Each other mark is passed over, or becomes a token that begins no image.
          refine beginsNone_ite (beginsNone_ite (emitted Mark.noConfusion _) (passed _)) ?_
          refine beginsNone_ite (one Mark.noConfusion p _ _ _ _ 1) ?_
          refine beginsNone_ite (ih _ (markless.drop 1)) ?_
          refine beginsNone_ite (ih _ (markless.drop 1)) ?_
          refine beginsNone_ite (emitted Mark.noConfusion _) ?_
          refine beginsNone_ite (emitted Mark.noConfusion 1) ?_
          refine beginsNone_ite (emitted (by simp) 1) ?_
          refine beginsNone_ite (emitted Mark.noConfusion 1) (beginsNone_ite ?_ (passed 1))
          cases Entity.scan? whole with
          | none => exact passed 1
          | some found => exact emitted Mark.noConfusion _

end Token

/-- Text none of whose tokens begins an image has none. -/
theorem Inline.imageless_ofTokens {tokens : List Token}
    (shut : InlineReader.BeginsNone tokens) (refs : References)
    : AllImageless (ofTokens refs tokens) := by
  refine Emphasis.imageless_resolve fun piece member => ?_
  obtain ⟨item, inside, rfl⟩ := List.mem_map.mp member
  have clear := InlineReader.clear_readFrom refs (tokens.length + 1) shut (List.forall_mem_nil _)
  exact (clear item (List.mem_reverse.mp inside)).toPiece

theorem Inline.imageless_ofText {s : List Char} (markless : Markless s) (refs : References)
    : AllImageless (ofText refs s) := by
  refine imageless_ofTokens (Token.beginsNone_readFrom _ _ fun inside => markless ?_) refs
  exact inside.trans (List.dropWhile_suffix _).isInfix

end Publication.Markdown
