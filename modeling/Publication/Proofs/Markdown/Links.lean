import Publication.Markdown.Inline.Reader
import Publication.Proofs.Markdown.Imageless
import Publication.Proofs.Markdown.Tokens

/-! Images and links whose text is escaped and whose destination is an address in angle brackets.
Such text is read as that image or link and nothing else.
-/

namespace Publication.Markdown

open Publication.Text
open Publication.Markdown.Token (Escaped InWord IsMild Reads targetText)

-----------------------------------------------------------------------------------------
-- Destinations
-----------------------------------------------------------------------------------------

section

variable {dest : List Char}

theorem Token.InWord.plain {c : Char} (word : InWord c)
    : c ≠ '\\' ∧ c ≠ '<' ∧ c ≠ '>' ∧ c ≠ '&' ∧ isBreak c = false := by
  rcases word with ⟨⟨inLine, plain⟩, other⟩ | rfl
  · simp only [Token.marks, List.mem_cons, not_or] at plain
    exact ⟨plain.1, plain.2.2.2.2.2.2.2.2.1, other, by simp_all, inLine⟩
  · decide

/-- An address ends with its bracket, by induction on it. -/
theorem pointed?_append (word : ∀ c ∈ dest, InWord c) (read t : List Char)
    : Link.pointed? read (dest ++ '>' :: t) = some (read.reverse ++ dest, t) := by
  induction dest generalizing read with
  | nil => simp [Link.pointed?, isBreak]
  | cons c dest ih =>
      obtain ⟨slash, opening, closing, _, inLine⟩ := (word c List.mem_cons_self).plain
      rw [List.cons_append, Link.pointed?]
      · simp only [inLine, opening, closing]
        simpa using ih (fun d member => word d (List.mem_cons_of_mem _ member)) (c :: read)
      · intro d more same
        exact absurd same slash

theorem scan?_eq_none {c : Char} (other : c ≠ '&') (rest : List Char)
    : Entity.scan? (c :: rest) = none := by
  simp only [Entity.scan?]
  split <;> simp_all

/-- There is nothing to unescape in an address, by induction on the fuel. -/
theorem unescapeFrom_eq_self (word : ∀ c ∈ dest, InWord c) (fuel : Nat)
    : Link.unescapeFrom fuel dest = dest := by
  induction fuel generalizing dest with
  | zero => rfl
  | succ fuel ih =>
      cases dest with
      | nil => rfl
      | cons c dest =>
          obtain ⟨slash, _, _, reference, inLine⟩ := (word c List.mem_cons_self).plain
          have feed : c ≠ '\r' := by
            rintro rfl
            cases inLine
          have rest := ih fun d member => word d (List.mem_cons_of_mem _ member)
          rw [Link.unescapeFrom, scan?_eq_none reference, rest]
          · exact fun d more same => absurd same slash
          · exact fun same => absurd same feed

/-- A destination in angle brackets is read as it is written. -/
theorem inline?_target (word : ∀ c ∈ dest, InWord c) (t : List Char)
    : Link.inline? (targetText dest t) = some (⟨String.ofList dest, ""⟩, t) := by
  have opened : Link.skipBlanks ('<' :: (dest ++ '>' :: ')' :: t))
      = '<' :: (dest ++ '>' :: ')' :: t) :=
    rfl
  have closed : Link.skipBlanks (')' :: t) = ')' :: t := rfl
  have untitled : Link.title? (')' :: t) = none := rfl
  have read : Link.destination? ('<' :: (dest ++ '>' :: ')' :: t)) = some (dest, ')' :: t) :=
    pointed?_append word [] (')' :: t)
  have plain : Link.unescape dest = dest := unescapeFrom_eq_self word _
  simp only [Link.inline?, targetText, opened, read, Option.bind_some, closed, untitled, plain]
  rfl

end

-----------------------------------------------------------------------------------------
-- Reading tokens
-----------------------------------------------------------------------------------------

namespace InlineReader

/-- The reading of tokens gets from some to others, and from items to others. -/
def Takes (refs : References) (tokens : List Token) (items : List Item) (rest : List Token)
    (last : List Item) : Prop :=
  ∀ fuel, tokens.length < fuel →
    ∃ left,
      rest.length < left ∧ readFrom refs fuel tokens items = readFrom refs left rest last

section

variable {refs : References} {tokens rest others : List Token} {items last final : List Item}

theorem Takes.refl (refs : References) (tokens : List Token) (items : List Item)
    : Takes refs tokens items tokens items :=
  fun fuel enough => ⟨fuel, enough, rfl⟩

theorem Takes.trans (first : Takes refs tokens items rest last)
    (second : Takes refs rest last others final)
    : Takes refs tokens items others final := by
  intro fuel enough
  obtain ⟨middle, some_left, read⟩ := first fuel enough
  obtain ⟨left, more_left, behind⟩ := second middle some_left
  exact ⟨left, more_left, read.trans behind⟩

theorem Takes.of_step {token : Token} (shorter : rest.length ≤ tokens.length)
    (step
      : ∀ fuel, readFrom refs (fuel + 1) (token :: tokens) items = readFrom refs fuel rest last)
    : Takes refs (token :: tokens) items rest last := by
  intro fuel enough
  cases fuel with
  | zero => cases enough
  | succ fuel =>
      rw [List.length_cons] at enough
      exact ⟨fuel, by omega, step fuel⟩

/-- Mild tokens become elements that are no images, by induction on them. -/
theorem exists_takes_mild (mild : ∀ token ∈ tokens, IsMild token.mark) (rest : List Token)
    (items : List Item)
    : ∃ elements : List Inline,
        Inline.AllImageless elements
        ∧ Takes refs (tokens ++ rest) items rest (elements.map Item.ofInline ++ items) := by
  induction tokens generalizing items with
  | nil => exact ⟨[], List.forall_mem_nil _, .refl _ _ _⟩
  | cons token tokens ih =>
      have one : ∃ element : Inline,
          (∀ fuel,
            readFrom refs (fuel + 1) (token :: (tokens ++ rest)) items
            = readFrom refs fuel (tokens ++ rest) (Item.ofInline element :: items))
          ∧ Imageless element.events := by
        rcases mild token List.mem_cons_self with is | is | ⟨backslash, is⟩ | is
        all_goals
          simp only [readFrom, is]
          exact ⟨_, fun fuel => rfl, imageless_singleton rfl⟩
      obtain ⟨element, step, plain⟩ := one
      obtain ⟨elements, imageless, others⟩ :=
        ih (fun other member => mild other (List.mem_cons_of_mem _ member))
          (Item.ofInline element :: items)
      refine ⟨elements ++ [element], imageless.append (.cons plain (List.forall_mem_nil _)),
        .trans (.of_step (Nat.le_refl _) step) ?_⟩
      rwa [List.map_append, List.append_assoc]

/-- An opening bracket waits for the one that closes it. -/
theorem takes_bracket (refs : References) (image : Bool) (start stop : Nat) (source : List Char)
    (rest : List Token) (items : List Item)
    : Takes refs (⟨.bracket image, start, stop, source⟩ :: rest) items rest
        (.bracket image true (if image then source.tail else source) :: items) :=
  .of_step (Nat.le_refl _) fun _ => by simp only [readFrom]

theorem length_tokensFrom_le (pos : Nat) (tokens : List Token)
    : (tokensFrom pos tokens).length ≤ tokens.length := by
  induction tokens with
  | nil => exact Nat.le_refl _
  | cons token rest ih =>
      simp only [tokensFrom]
      split
      · exact Nat.le_succ_of_le ih
      · split <;> exact Nat.le_refl _

/-- Tokens that end before a position are passed over, by induction on them. -/
theorem tokensFrom_append {pos : Nat} (passed : ∀ token ∈ tokens, token.stop ≤ pos)
    (rest : List Token)
    : tokensFrom pos (tokens ++ rest) = tokensFrom pos rest := by
  induction tokens with
  | nil => rfl
  | cons token tokens ih =>
      rw [List.cons_append, tokensFrom, if_pos (passed token List.mem_cons_self)]
      exact ih fun other member => passed other (List.mem_cons_of_mem _ member)

/-- Behind the end of the text there are no tokens. -/
theorem tokensFrom_end (fuel : Nat) (r : Token.Place)
    : tokensFrom r.pos (Token.readFrom fuel r []) = [] := by
  have trimmed : tokensFrom r.pos (r.trimmed.1 ++ []) = [] := by
    refine tokensFrom_append (fun token member => ?_) []
    exact Nat.le_trans (Token.stop_le_of_mem_pending member) (Nat.sub_le _ _)
  rw [List.append_nil] at trimmed
  cases fuel <;> simpa only [Token.readFrom] using trimmed

/-- Elements are put behind the bracket before them, by induction on them. -/
theorem exists_splitAtBracket (elements : List Inline) (image active : Bool) (source : List Char)
    (before : List Item) (behind : List Piece)
    : ∃ inner,
        splitAtBracket behind
          (elements.map Item.ofInline ++ .bracket image active source :: before)
        = some (inner, (image, active, source), before) := by
  induction elements generalizing behind with
  | nil => exact ⟨behind, rfl⟩
  | cons element elements ih => exact ih (.element element :: behind)

/-- A closing bracket before an address makes a link or an image of what is behind the opening one.
-/
theorem takes_close {dest t source : List Char} {image : Bool} {inner : List Piece}
    {before : List Item} (word : ∀ c ∈ dest, InWord c)
    (split : splitAtBracket [] items = some (inner, (image, true, source), before))
    (pos : Nat) (rest : List Token)
    : Takes refs
        (⟨.close, pos, pos + 1, ']' :: targetText dest t⟩ :: rest) items
        (tokensFrom (pos + 1 + (dest.length + 4)) rest)
        (.ofInline (.link image .inline (String.ofList dest) "" "" (Emphasis.resolve inner))
          :: if image then before else deactivateLinks before) := by
  have closed : closeBracket refs
      ⟨.close, pos, pos + 1, ']' :: targetText dest t⟩ items
      = (.ofInline (.link image .inline (String.ofList dest) "" "" (Emphasis.resolve inner))
          :: (if image then before else deactivateLinks before), pos + 1 + (dest.length + 4)) := by
    have size : (targetText dest t).length - t.length = dest.length + 4 := by
      simp only [targetText, List.length_cons, List.length_append]
      omega
    simp only [closeBracket, split, List.tail_cons, inline?_target word, size, Bool.not_true,
      Bool.false_eq_true, if_false]
  refine .of_step (length_tokensFrom_le _ _) fun fuel => ?_
  simp only [readFrom, closed]

end

end InlineReader

-----------------------------------------------------------------------------------------
-- Images and links
-----------------------------------------------------------------------------------------

namespace Token

theorem readFrom_close (fuel : Nat) (p : Place) (t : List Char)
    : readFrom (fuel + 1) p (']' :: t)
      = p.pending ++ ⟨.close, p.pos, p.pos + 1, ']' :: t⟩
          :: readFrom fuel (p.behind 1 (']' :: t)) t := by
  have inLine : isBreak ']' = false := by decide
  simp [readFrom, inLine]

theorem readFrom_bracket (fuel : Nat) (p : Place) (t : List Char)
    : readFrom (fuel + 1) p ('[' :: t)
      = p.pending ++ ⟨.bracket false, p.pos, p.pos + 1, '[' :: t⟩
          :: readFrom fuel (p.behind 1 ('[' :: t)) t := by
  have inLine : isBreak '[' = false := by decide
  simp [readFrom, inLine]

theorem readFrom_image (fuel : Nat) (p : Place) (t : List Char)
    : readFrom (fuel + 1) p ('!' :: '[' :: t)
      = p.pending ++ ⟨.bracket true, p.pos, p.pos + 2, '!' :: '[' :: t⟩
          :: readFrom fuel (p.behind 2 ('!' :: '[' :: t)) t := by
  have inLine : isBreak '!' = false := by decide
  simp [readFrom, inLine]

end Token

/-- A closing bracket and the address behind it end a link or an image, and the reading goes on
behind them.
-/
theorem exists_takes_address {dest : List Char} (word : ∀ c ∈ dest, InWord c) (t : List Char)
    (q : Token.Place) {fuel : Nat} (enough : (']' :: targetText dest t).length < fuel)
    : ∃ left r tokens,
        t.length < left
        ∧ Token.readFrom fuel q (']' :: targetText dest t)
          = q.pending ++ ⟨.close, q.pos, q.pos + 1, ']' :: targetText dest t⟩ :: tokens
        ∧ ∀ {refs items inner image source before},
            InlineReader.splitAtBracket [] items = some (inner, (image, true, source), before)
            → InlineReader.Takes refs
                (⟨.close, q.pos, q.pos + 1, ']' :: targetText dest t⟩ :: tokens) items
                (InlineReader.tokensFrom r.pos (Token.readFrom left r t))
                (.ofInline
                    (.link image .inline (String.ofList dest) "" "" (Emphasis.resolve inner))
                  :: if image then before else InlineReader.deactivateLinks before) := by
  cases fuel with
  | zero => cases enough
  | succ fuel =>
      obtain ⟨r, there, address⟩ := Token.exists_reads_target word t
        (q.behind 1 (']' :: targetText dest t))
      obtain ⟨passed, left, more, reach, behind⟩ := address fuel (Nat.lt_of_succ_lt_succ enough)
      refine ⟨left, r, passed ++ Token.readFrom left r t, more, ?_, ?_⟩
      · rw [Token.readFrom_close, behind]
      · intro refs items inner image source before split
        have closed := @InlineReader.takes_close refs items dest t source image inner before word
          split q.pos (passed ++ Token.readFrom left r t)
        have moved : q.pos + 1 + (dest.length + 4) = r.pos := there.symm
        rwa [moved, InlineReader.tokensFrom_append reach] at closed

/-- The text of an image, and what follows. -/
def imageText (alt dest t : List Char) : List Char :=
  '!' :: '[' :: (alt ++ ']' :: targetText dest t)

theorem imageText_append (alt dest t u : List Char)
    : imageText alt dest t ++ u = ['!', '['] ++ (alt ++ ']' :: (targetText dest t ++ u)) := by
  simp [imageText]

/-- An image is taken for one, and the reading goes on behind it. -/
theorem exists_takes_image {alt dest : List Char} (escaped : Escaped alt)
    (word : ∀ c ∈ dest, InWord c) (t : List Char) {p : Token.Place} (idle : p.pending = [])
    (refs : References) (items : List InlineReader.Item) {fuel : Nat}
    (enough : (imageText alt dest t).length < fuel)
    : ∃ left r inner,
        t.length < left
        ∧ InlineReader.Takes refs (Token.readFrom fuel p (imageText alt dest t)) items
            (InlineReader.tokensFrom r.pos (Token.readFrom left r t))
            (.ofInline (.link true .inline (String.ofList dest) "" "" inner) :: items) := by
  cases fuel with
  | zero => cases enough
  | succ fuel =>
      -- The tokens of the text, the bracket behind it, and those of the address.
      obtain ⟨q, text⟩ := escaped.exists_reads (Token.closes_bracket (targetText dest t))
        (p.behind 2 (imageText alt dest t))
      obtain ⟨tokens, middle, some_left, mild, read⟩ := text fuel (by
        simp only [imageText, List.length_cons] at enough
        omega)
      obtain ⟨left, r, address, more, close, closed⟩ := exists_takes_address word t q some_left
      have whole : Token.readFrom (fuel + 1) p (imageText alt dest t)
          = ⟨.bracket true, p.pos, p.pos + 2, imageText alt dest t⟩
            :: ((tokens ++ q.pending)
              ++ ⟨.close, q.pos, q.pos + 1, ']' :: targetText dest t⟩ :: address) := by
        rw [imageText, Token.readFrom_image, idle, List.nil_append, ← imageText, read, close,
          List.append_assoc]
      obtain ⟨elements, _, filled⟩ := @InlineReader.exists_takes_mild refs _
        (Token.isMild_append_pending mild q)
        (⟨.close, q.pos, q.pos + 1, ']' :: targetText dest t⟩ :: address)
        (.bracket true true (imageText alt dest t).tail :: items)
      obtain ⟨inner, split⟩ := InlineReader.exists_splitAtBracket elements true true
        (imageText alt dest t).tail items []
      refine ⟨left, r, Emphasis.resolve inner, more, ?_⟩
      rw [whole]
      exact (InlineReader.takes_bracket refs true _ _ _ _ items).trans (filled.trans (closed split))

section

variable {alt dest outer : List Char}

/-- Tokens that come to one element make up that element. -/
theorem ofTokens_of_takes {refs : References} {tokens : List Token} {element : Inline}
    (whole : element ≠ .hardBreak true)
    (takes : InlineReader.Takes refs tokens [] [] [.ofInline element])
    : Inline.ofTokens refs tokens = [element] := by
  obtain ⟨left, enough, read⟩ := takes (tokens.length + 1) (Nat.lt_succ_self _)
  have ended : InlineReader.readFrom refs left [] [.ofInline element] = [.ofInline element] := by
    cases left <;> rfl
  have kept : Emphasis.finishBreak [element] = [element] := by
    simp only [Emphasis.finishBreak]
    split
    next same => exact absurd (List.cons.inj same).1 whole
    next => rfl
  rw [Inline.ofTokens, read, ended]
  change (Emphasis.finishBreak [element]).reverse = [element]
  rw [kept]
  rfl

/-- The text of an image with an address is that image. -/
theorem exists_ofText_image (escaped : Escaped alt) (word : ∀ c ∈ dest, InWord c)
    (refs : References)
    : ∃ inner,
        Inline.ofText refs (imageText alt dest [])
        = [.link true .inline (String.ofList dest) "" "" inner] := by
  obtain ⟨left, r, inner, _, takes⟩ :=
    @exists_takes_image _ _ escaped word [] { textSource := imageText alt dest [] } rfl refs [] _
      (Nat.lt_succ_self _)
  rw [InlineReader.tokensFrom_end] at takes
  exact ⟨inner, ofTokens_of_takes (fun same => by cases same) takes⟩

/-- The text of an image inside a link is that image inside that link. -/
theorem exists_ofText_link (escaped : Escaped alt) (word : ∀ c ∈ dest, InWord c)
    (outerWord : ∀ c ∈ outer, InWord c) (refs : References)
    : ∃ inner,
        Inline.ofText refs ('[' :: imageText alt dest (']' :: targetText outer []))
        = [.link false .inline (String.ofList outer) "" ""
            [.link true .inline (String.ofList dest) "" "" inner]] := by
  generalize text : '[' :: imageText alt dest (']' :: targetText outer []) = s
  let p : Token.Place := { textSource := s }
  obtain ⟨left, r, inner, some_left, image⟩ :=
    @exists_takes_image _ _ escaped word (']' :: targetText outer []) (p.behind 1 s)
      (by simp [Token.Place.pending, Token.Place.behind, Token.Place.skip]) refs
      [.bracket false true s] s.length (by rw [← text]; exact Nat.lt_succ_self _)
  have begun : Token.ofText s
      = ⟨.bracket false, 0, 1, s⟩
        :: Token.readFrom s.length (p.behind 1 s)
          (imageText alt dest (']' :: targetText outer [])) := by
    subst text
    exact Token.readFrom_bracket _ _ _
  obtain ⟨last, z, address, _, close, closed⟩ := exists_takes_address outerWord [] r some_left
  have stands : InlineReader.tokensFrom r.pos
      (Token.readFrom left r (']' :: targetText outer []))
      = ⟨.close, r.pos, r.pos + 1, ']' :: targetText outer []⟩ :: address := by
    rw [close, InlineReader.tokensFrom_append fun _ => Token.stop_le_of_mem_pending]
    rw [InlineReader.tokensFrom, if_neg (Nat.not_succ_le_self _), if_neg (Nat.lt_irrefl _)]
  have linked := @closed refs
    [.ofInline (.link true .inline (String.ofList dest) "" "" inner), .bracket false true s]
    _ false s [] rfl
  rw [InlineReader.tokensFrom_end] at linked
  rw [stands] at image
  refine ⟨inner, ?_⟩
  rw [Inline.ofText, begun]
  refine ofTokens_of_takes (fun same => by cases same) ?_
  exact (InlineReader.takes_bracket refs false 0 1 s _ []).trans (image.trans linked)

/-- An image that does not end is text. -/
theorem imageless_open (escaped : Escaped alt) (refs : References)
    : Inline.AllImageless (Inline.ofText refs ('!' :: '[' :: alt)) := by
  generalize text : '!' :: '[' :: alt = s
  let p : Token.Place := { textSource := s }
  obtain ⟨q, reads⟩ := @Token.Escaped.exists_reads alt [] escaped Token.closes_nil (p.behind 2 s)
  rw [List.append_nil] at reads
  obtain ⟨tokens, left, _, mild, read⟩ := reads s.length (by
    rw [← text, List.length_cons, List.length_cons]
    omega)
  have begun : Token.ofText s
      = ⟨.bracket true, 0, 2, s⟩ :: (tokens ++ q.trimmed.1) := by
    have ended : Token.readFrom left q [] = q.trimmed.1 := by
      cases left <;> rfl
    rw [← ended, ← read]
    subst text
    exact Token.readFrom_image _ _ _
  have settled : ∀ token ∈ tokens ++ q.trimmed.1, IsMild token.mark :=
    Token.isMild_append_pending mild _
  obtain ⟨elements, imageless, filled⟩ := @InlineReader.exists_takes_mild refs _ settled []
    [.bracket true true s.tail]
  rw [List.append_nil] at filled
  have whole := (InlineReader.takes_bracket refs true 0 2 s (tokens ++ q.trimmed.1) []).trans filled
  obtain ⟨fuel, _, items⟩ := whole _ (Nat.lt_succ_self _)
  have done (items : List InlineReader.Item)
      : InlineReader.readFrom refs fuel [] items = items := by
    cases fuel <;> rfl
  rw [Inline.ofText, Inline.ofTokens, begun, items, done]
  refine Emphasis.imageless_resolve fun piece member => ?_
  obtain ⟨item, inside, rfl⟩ := List.mem_map.mp member
  rcases List.mem_append.mp (List.mem_reverse.mp inside) with inside | inside
  · obtain ⟨element, found, rfl⟩ := List.mem_map.mp inside
    exact imageless element found
  · rw [List.mem_singleton.mp inside]
    exact Inline.imageless_text _

end

end Publication.Markdown
