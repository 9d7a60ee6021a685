import Publication.Markdown.Inline.Token

/-! Stretches of text whose tokens are known. Escaped text has no token that could mean anything but
itself, and in an address there are none that reach beyond it; whatever follows is read from behind.
-/

namespace Publication.Markdown.Token

open Publication.Text

-----------------------------------------------------------------------------------------
-- Reading on
-----------------------------------------------------------------------------------------

/-- The reading of tokens gets from one place in a text to another; the tokens up to there are all
such as they are to be.
-/
def Reads (good : Token → Prop) (p : Place) (s : List Char) (q : Place) (t : List Char) : Prop :=
  ∀ fuel, s.length < fuel →
    ∃ tokens left,
      t.length < left
      ∧ (∀ token ∈ tokens, good token)
      ∧ readFrom fuel p s = tokens ++ readFrom left q t

section

variable {good : Token → Prop} {p q r : Place} {s t u : List Char}

theorem Reads.refl (good : Token → Prop) (p : Place) (s : List Char) : Reads good p s p s :=
  fun fuel enough => ⟨[], fuel, enough, List.forall_mem_nil _, rfl⟩

theorem Reads.trans (first : Reads good p s q t) (second : Reads good q t r u)
    : Reads good p s r u := by
  intro fuel enough
  obtain ⟨front, middle, some_left, fine, read⟩ := first fuel enough
  obtain ⟨back, left, enough_left, more, behind⟩ := second middle some_left
  refine ⟨front ++ back, left, enough_left, ?_, by rw [read, behind, List.append_assoc]⟩
  intro token member
  rcases List.mem_append.mp member with member | member
  · exact fine token member
  · exact more token member

/-- One step of the reading, for whatever fuel. -/
theorem Reads.of_step {tokens : List Token} (shorter : t.length < s.length)
    (fine : ∀ token ∈ tokens, good token)
    (step : ∀ fuel, readFrom (fuel + 1) p s = tokens ++ readFrom fuel q t)
    : Reads good p s q t := by
  intro fuel enough
  cases fuel with
  | zero => cases enough
  | succ fuel => exact ⟨tokens, fuel, by omega, fine, step fuel⟩

end

/-- The marks that tokens are read from, apart from line breaks. -/
def marks : List Char :=
  ['\\', '*', '_', '~', '$', '\x7b', '\x7d', '\x60', '<', '!', '[', ']', '&']

/-- A character that is passed over as text. -/
def IsCalm (c : Char) : Prop := isBreak c = false ∧ c ∉ marks

instance (c : Char) : Decidable (IsCalm c) := inferInstanceAs (Decidable (_ ∧ _))

theorem isCalm_of_not_punctuation {c : Char} (plain : isAsciiPunctuation c = false)
    (inLine : isBreak c = false)
    : IsCalm c := by
  refine ⟨inLine, fun mark => ?_⟩
  have all : marks.all isAsciiPunctuation = true := by decide
  rw [List.all_eq_true.mp all c mark] at plain
  cases plain

theorem reads_calm {c : Char} (calm : IsCalm c) (good : Token → Prop) (p : Place) (t : List Char)
    : Reads good p (c :: t) (p.skip 1 (c :: t)) t := by
  have step (fuel : Nat)
      : readFrom (fuel + 1) p (c :: t) = [] ++ readFrom fuel (p.skip 1 (c :: t)) t := by
    obtain ⟨inLine, plain⟩ := calm
    simp only [marks, List.mem_cons, List.not_mem_nil, or_false, not_or] at plain
    simp [readFrom, inLine, plain]
  exact .of_step (Nat.lt_succ_self _) (List.forall_mem_nil _) step

-----------------------------------------------------------------------------------------
-- Escaped text
-----------------------------------------------------------------------------------------

/-- Text in which a backslash stands before each mark of ASCII. -/
inductive Escaped : List Char → Prop
  | nil : Escaped []
  | plain {c : Char} {s : List Char} (letter : isAsciiPunctuation c = false) (rest : Escaped s)
      : Escaped (c :: s)
  | mark {c : Char} {s : List Char} (sign : isAsciiPunctuation c = true) (rest : Escaped s)
      : Escaped ('\\' :: c :: s)

/-- What may follow escaped text: a closing bracket, or nothing. -/
def Closes (t : List Char) : Prop := ∀ c ∈ t.head?, c = ']'

theorem closes_nil : Closes [] := fun _ member => by cases member

theorem closes_bracket (t : List Char) : Closes (']' :: t) :=
  fun _ member => (Option.some.inj member).symm

theorem Closes.countWhile_eq_zero {t : List Char} (closes : Closes t) {test : Char → Bool}
    (other : test ']' = false)
    : countWhile test t = 0 := by
  cases t with
  | nil => rfl
  | cons c t =>
      obtain rfl := closes c rfl
      simp [countWhile, other]

/-- Escaped text is still escaped behind the spaces that it begins with. -/
theorem Escaped.exists_spaces {s t : List Char} (escaped : Escaped s) (closes : Closes t)
    : ∃ spaces rest,
        s = spaces ++ rest
        ∧ Escaped rest
        ∧ countWhile isSpace (s ++ t) = spaces.length := by
  induction escaped with
  | nil => exact ⟨[], [], rfl, .nil, closes.countWhile_eq_zero rfl⟩
  | @plain c s letter rest ih =>
      by_cases space : isSpace c = true
      · obtain ⟨spaces, left, rfl, escaped, count⟩ := ih
        refine ⟨c :: spaces, left, rfl, escaped, ?_⟩
        simp only [countWhile, List.cons_append, List.takeWhile_cons, space, if_true,
          List.length_cons] at count ⊢
        rw [count]
      · exact ⟨[], c :: s, rfl, .plain letter rest, by simp [countWhile, space]⟩
  | @mark c s sign rest _ => exact ⟨[], '\\' :: c :: s, rfl, .mark sign rest, rfl⟩

/-- The marks in escaped text: they stand for themselves, whatever follows. -/
def IsMild (mark : Mark) : Prop :=
  mark = .text ∨ mark = .softBreak ∨ (∃ backslash, mark = .hardBreak backslash)
    ∨ mark = .ticks 1 true

theorem isMild_of_mem_pending {p : Place} {token : Token} (member : token ∈ p.pending)
    : IsMild token.mark := by
  simp only [Place.pending] at member
  split at member
  · rw [List.mem_singleton.mp member]
    exact .inl rfl
  · cases member

/-- The text that is not read yet adds a mild token at most. -/
theorem isMild_append_pending {tokens : List Token} (mild : ∀ token ∈ tokens, IsMild token.mark)
    (p : Place)
    : ∀ token ∈ tokens ++ p.pending, IsMild token.mark :=
  List.forall_mem_append.mpr ⟨mild, fun _ => isMild_of_mem_pending⟩

theorem isMild_of_mem_append_singleton {p : Place} {token last : Token} (mild : IsMild last.mark)
    (member : token ∈ p.pending ++ [last])
    : IsMild token.mark := by
  rcases List.mem_append.mp member with member | member
  · exact isMild_of_mem_pending member
  · rwa [List.mem_singleton.mp member]

/-- A line break ends the text before it, with the spaces behind it. -/
theorem exists_readFrom_break {c : Char} (breaks : isBreak c = true) (p : Place) (rest : List Char)
    : ∃ tokens q,
        (∀ token ∈ tokens, IsMild token.mark)
        ∧ ∀ fuel,
            let width := if c == '\r' && rest.head? == some '\n' then 2 else 1
            let n := width + countWhile isSpace ((c :: rest).drop width)
            readFrom (fuel + 1) p (c :: rest)
              = tokens ++ readFrom fuel q ((c :: rest).drop n) := by
  simp only [readFrom, breaks, if_true]
  generalize (if c == '\r' && rest.head? == some '\n' then 2 else 1) = width
  split
  next => exact ⟨_, _, fun _ => isMild_of_mem_append_singleton (.inr (.inr (.inl ⟨_, rfl⟩))),
      fun fuel => List.append_cons _ _ _⟩
  next =>
    refine ⟨_, _, ?_, fun fuel => List.append_cons _ _ _⟩
    intro token
    refine isMild_of_mem_append_singleton ?_
    split
    · exact .inr (.inr (.inl ⟨_, rfl⟩))
    · exact .inr (.inl rfl)

/-- A line break in escaped text gets the reading to escaped text. -/
theorem Escaped.exists_reads_break {c : Char} {s t : List Char} (breaks : isBreak c = true)
    (escaped : Escaped s) (closes : Closes t) (p : Place)
    : ∃ rest q,
        Escaped rest
        ∧ rest.length ≤ s.length
        ∧ Reads (IsMild ·.mark) p (c :: (s ++ t)) q (rest ++ t) := by
  obtain ⟨tokens, q, mild, step⟩ := exists_readFrom_break breaks p (s ++ t)
  -- Behind the break, and behind the second character of one that has two.
  obtain ⟨behind, shorter, inner, dropped⟩
      : ∃ behind,
          behind.length ≤ s.length
          ∧ Escaped behind
          ∧ (c :: (s ++ t)).drop
              (if c == '\r' && (s ++ t).head? == some '\n' then 2 else 1)
            = behind ++ t := by
    split
    next pair =>
      cases escaped with
      | nil =>
          simp only [List.nil_append, Bool.and_eq_true, beq_iff_eq] at pair
          exact absurd (closes _ pair.2) (by decide)
      | plain letter rest => exact ⟨_, Nat.le_succ _, rest, rfl⟩
      | mark sign rest => simp at pair
    next => exact ⟨s, Nat.le_refl _, escaped, rfl⟩
  obtain ⟨spaces, rest, rfl, left, count⟩ := inner.exists_spaces closes
  refine ⟨rest, q, left, ?_, ?_⟩
  · rw [List.length_append] at shorter
    omega
  · have goes : (c :: (s ++ t)).drop
        ((if c == '\r' && (s ++ t).head? == some '\n' then 2 else 1)
          + countWhile isSpace ((c :: (s ++ t)).drop
            (if c == '\r' && (s ++ t).head? == some '\n' then 2 else 1)))
        = rest ++ t := by
      rw [← List.drop_drop, dropped, count, List.append_assoc, List.drop_left]
    simp only [goes] at step
    refine .of_step ?_ mild step
    rw [List.length_append] at shorter
    simp only [List.length_cons, List.length_append]
    omega

/-- An escaped character ends the text before it, and begins the next one. -/
theorem Escaped.exists_reads_mark {d : Char} {s t : List Char} (sign : isAsciiPunctuation d = true)
    (escaped : Escaped s) (closes : Closes t) (p : Place)
    : ∃ q, Reads (IsMild ·.mark) p ('\\' :: d :: (s ++ t)) q (s ++ t) := by
  have inLine : isBreak '\\' = false := by decide
  have shorter : (s ++ t).length < ('\\' :: d :: (s ++ t)).length := by
    simp only [List.length_cons]
    omega
  by_cases tick : d = '\x60'
  · subst tick
    have alone : countWhile (· == '\x60') (s ++ t) = 0 := by
      cases escaped with
      | nil => exact closes.countWhile_eq_zero rfl
      | @plain c s letter =>
          have other : c ≠ '\x60' := by
            rintro rfl
            cases letter
          simp [countWhile, other]
      | mark => rfl
    have step (fuel : Nat)
        : readFrom (fuel + 1) p ('\\' :: '\x60' :: (s ++ t))
          = (p.pending ++ [⟨.ticks 1 true, p.pos + 1, p.pos + 2, '\x60' :: (s ++ t)⟩])
            ++ readFrom fuel (p.behind 2 ('\\' :: '\x60' :: (s ++ t))) (s ++ t) := by
      simp [readFrom, inLine, sign, alone]
    refine ⟨_, .of_step shorter (fun token => ?_) step⟩
    exact isMild_of_mem_append_singleton (.inr (.inr (.inr rfl)))
  · have step (fuel : Nat)
        : readFrom (fuel + 1) p ('\\' :: d :: (s ++ t))
          = p.pending
            ++ readFrom fuel
              { p.skip 2 ('\\' :: d :: (s ++ t)) with
                textStart := p.pos + 1, textSource := d :: (s ++ t), escaped := true }
              (s ++ t) := by
      simp [readFrom, inLine, sign, tick]
    exact ⟨_, .of_step shorter (fun _ => isMild_of_mem_pending) step⟩

/-- Escaped text has mild tokens only, by induction on its length: behind a line break it goes on
behind spaces.
-/
theorem Escaped.exists_reads {s t : List Char} (escaped : Escaped s) (closes : Closes t) (p : Place)
    : ∃ q, Reads (IsMild ·.mark) p (s ++ t) q t := by
  cases escaped with
  | nil => exact ⟨p, .refl _ _ _⟩
  | @plain c s letter escaped =>
      by_cases breaks : isBreak c = true
      · obtain ⟨rest, q, left, shorter, first⟩ := escaped.exists_reads_break breaks closes p
        obtain ⟨last, second⟩ := left.exists_reads closes q
        exact ⟨last, first.trans second⟩
      · have calm := isCalm_of_not_punctuation letter (Bool.eq_false_iff.mpr breaks)
        have first := reads_calm calm (IsMild ·.mark) p (s ++ t)
        obtain ⟨last, second⟩ := escaped.exists_reads closes _
        exact ⟨last, first.trans second⟩
  | @mark d s sign escaped =>
      obtain ⟨q, first⟩ := escaped.exists_reads_mark sign closes p
      obtain ⟨last, second⟩ := escaped.exists_reads closes q
      exact ⟨last, first.trans second⟩
termination_by s.length

-----------------------------------------------------------------------------------------
-- Addresses
-----------------------------------------------------------------------------------------

/-- A character that an address may have. The only mark among them emphasizes what is around it. -/
def InWord (c : Char) : Prop := (IsCalm c ∧ c ≠ '>') ∨ c = '_'

instance (c : Char) : Decidable (InWord c) := inferInstanceAs (Decidable (_ ∨ _))

theorem stop_le_of_mem_pending {p : Place} {token : Token} (member : token ∈ p.pending)
    : token.stop ≤ p.pos := by
  simp only [Place.pending] at member
  split at member
  · exact List.mem_singleton.mp member ▸ Nat.le_refl _
  · cases member

theorem stop_le_of_mem_append_singleton {p : Place} {token last : Token} {n : Nat}
    (most : last.stop = p.pos + n) (member : token ∈ p.pending ++ [last])
    : token.stop ≤ p.pos + n := by
  rcases List.mem_append.mp member with member | member
  · exact Nat.le_trans (stop_le_of_mem_pending member) (Nat.le_add_right _ _)
  · exact List.mem_singleton.mp member ▸ Nat.le_of_eq most

/-- A run of marks is read as a token, or passed over as text. -/
theorem exists_readFrom_underscore (p : Place) (rest : List Char)
    : ∃ tokens q,
        q.pos = p.pos + countWhile (· == '_') ('_' :: rest)
        ∧ (∀ token ∈ tokens, token.stop ≤ p.pos + countWhile (· == '_') ('_' :: rest))
        ∧ ∀ fuel,
            readFrom (fuel + 1) p ('_' :: rest)
              = tokens
                ++ readFrom fuel q (('_' :: rest).drop (countWhile (· == '_') ('_' :: rest))) := by
  have inLine : isBreak '_' = false := by decide
  have other : ('_' == '\\') = false := by decide
  have own : ('_' == '*' || '_' == '_' || '_' == '~') = true := by decide
  simp only [readFrom, inLine, other, own, Bool.false_eq_true, if_false, if_true]
  generalize countWhile (· == '_') ('_' :: rest) = n
  split
  next => exact ⟨_, _, rfl, fun _ => stop_le_of_mem_append_singleton rfl,
      fun fuel => List.append_cons _ _ _⟩
  next => exact ⟨[], p.skip n _, rfl, List.forall_mem_nil _, fun fuel => rfl⟩

theorem countWhile_append {test : Char → Bool} {u : List Char} {c : Char} (stops : test c = false)
    (t : List Char)
    : countWhile test (u ++ c :: t) = countWhile test u := by
  induction u with
  | nil => simp [countWhile, stops]
  | cons d u ih =>
      simp only [countWhile, List.cons_append, List.takeWhile_cons] at ih ⊢
      split
      · simp only [List.length_cons, ih]
      · rfl

theorem countWhile_le_length (test : Char → Bool) (u : List Char) : countWhile test u ≤ u.length :=
  (List.takeWhile_sublist test).length_le

/-- A run of marks that a word begins with is read at once, and leaves the rest of the word. -/
theorem exists_reads_run {u : List Char} {c : Char} (stops : c ≠ '_') (t : List Char) (p : Place)
    (n : Nat) (inside : p.pos + (u.length + 1) ≤ n)
    : ∃ k q,
        k ≤ u.length
        ∧ q.pos = p.pos + (k + 1)
        ∧ Reads (·.stop ≤ n) p ('_' :: (u ++ c :: t)) q (u.drop k ++ c :: t) := by
  obtain ⟨tokens, q, there, reach, step⟩ := exists_readFrom_underscore p (u ++ c :: t)
  have run : countWhile (· == '_') ('_' :: (u ++ c :: t)) = countWhile (· == '_') ('_' :: u) :=
    @countWhile_append (· == '_') ('_' :: u) c (by simpa using stops) t
  have most := countWhile_le_length (· == '_') ('_' :: u)
  obtain ⟨k, count⟩ : ∃ k, countWhile (· == '_') ('_' :: u) = k + 1 :=
    ⟨countWhile (· == '_') u, by simp [countWhile]⟩
  rw [run, count] at there reach step
  rw [count, List.length_cons] at most
  have goes : ('_' :: (u ++ c :: t)).drop (k + 1) = u.drop k ++ c :: t := by
    rw [List.drop_succ_cons, List.drop_append_of_le_length (Nat.le_of_succ_le_succ most)]
  rw [goes] at step
  refine ⟨k, q, Nat.le_of_succ_le_succ most, there, .of_step ?_ (fun token member => ?_) step⟩
  · simp only [List.length_append, List.length_cons, List.length_drop]
    omega
  · have bound := reach token member
    omega

/-- No token reaches out of a word, by induction on its length: a run of marks may be read at once.
-/
theorem exists_reads_word {u : List Char} (word : ∀ c ∈ u, InWord c) {c : Char} (stops : c ≠ '_')
    (t : List Char) (p : Place) (n : Nat) (inside : p.pos + u.length ≤ n)
    : ∃ q,
        q.pos = p.pos + u.length ∧ Reads (·.stop ≤ n) p (u ++ c :: t) q (c :: t) := by
  match u with
  | [] => exact ⟨p, rfl, .refl _ _ _⟩
  | d :: u =>
      have others : ∀ c ∈ u, InWord c := fun c member => word c (List.mem_cons_of_mem _ member)
      rw [List.length_cons] at inside
      rcases word d List.mem_cons_self with ⟨calm, _⟩ | rfl
      · have first := reads_calm calm (·.stop ≤ n) p (u ++ c :: t)
        have moved : (p.skip 1 (d :: (u ++ c :: t))).pos = p.pos + 1 := rfl
        obtain ⟨q, there, second⟩ :=
          exists_reads_word others stops t (p.skip 1 (d :: (u ++ c :: t))) n
            (by rw [moved]; omega)
        exact ⟨q, by rw [there, moved, List.length_cons]; omega, first.trans second⟩
      · obtain ⟨k, q, most, there, first⟩ := exists_reads_run stops t p n inside
        have size : (u.drop k).length = u.length - k := List.length_drop
        obtain ⟨last, ended, second⟩ :=
          exists_reads_word (fun c member => others c (List.mem_of_mem_drop member)) stops t q n
            (by rw [there, size]; omega)
        exact ⟨last, by rw [ended, there, size, List.length_cons]; omega, first.trans second⟩
termination_by u.length

theorem reads_angle {t : List Char} (unescaped : t.head? ≠ some '\\') (p : Place)
    : Reads (·.stop ≤ p.pos + 1) p ('<' :: t) (p.behind 1 ('<' :: t)) t := by
  have inLine : isBreak '<' = false := by decide
  have step (fuel : Nat)
      : readFrom (fuel + 1) p ('<' :: t)
        = (p.pending ++ [⟨.angle, p.pos, p.pos + 1, '<' :: t⟩])
          ++ readFrom fuel (p.behind 1 ('<' :: t)) t := by
    simp [readFrom, inLine, unescaped]
  exact .of_step (Nat.lt_succ_self _) (fun _ => stop_le_of_mem_append_singleton rfl) step

theorem Reads.mono {good better : Token → Prop} {p q : Place} {s t : List Char}
    (reads : Reads better p s q t) (weaker : ∀ token, better token → good token)
    : Reads good p s q t := by
  intro fuel enough
  obtain ⟨tokens, left, some_left, fine, read⟩ := reads fuel enough
  exact ⟨tokens, left, some_left, fun token member => weaker token (fine token member), read⟩

/-- An address in brackets, and what follows. -/
def targetText (dest t : List Char) : List Char := '(' :: '<' :: (dest ++ '>' :: ')' :: t)

/-- No token reaches out of an address in brackets. -/
theorem exists_reads_target {dest : List Char} (word : ∀ c ∈ dest, InWord c) (t : List Char)
    (p : Place)
    : ∃ q,
        q.pos = p.pos + (dest.length + 4)
        ∧ Reads (·.stop ≤ q.pos) p (targetText dest t) q t := by
  have unescaped : (dest ++ '>' :: ')' :: t).head? ≠ some '\\' := by
    cases dest with
    | nil => simp
    | cons c dest =>
        intro same
        obtain rfl : c = '\\' := Option.some.inj same
        rcases word _ List.mem_cons_self with ⟨calm, _⟩ | same
        · exact absurd calm (by decide)
        · cases same
  have first := reads_calm (by decide : IsCalm '(') (·.stop ≤ p.pos + (dest.length + 4)) p
    ('<' :: (dest ++ '>' :: ')' :: t))
  generalize opened : p.skip 1 ('(' :: '<' :: (dest ++ '>' :: ')' :: t)) = q at first
  have start : q.pos = p.pos + 1 := opened ▸ rfl
  have second := reads_angle unescaped q
  generalize pointed : q.behind 1 ('<' :: (dest ++ '>' :: ')' :: t)) = r at second
  have within : r.pos = p.pos + 2 := by rw [← pointed, Place.behind, Place.skip, start]
  obtain ⟨u, there, third⟩ := exists_reads_word word (by decide : '>' ≠ '_') (')' :: t) r
    (p.pos + (dest.length + 4)) (by omega)
  have fourth := reads_calm (by decide : IsCalm '>') (·.stop ≤ p.pos + (dest.length + 4)) u
    (')' :: t)
  have fifth := reads_calm (by decide : IsCalm ')') (·.stop ≤ p.pos + (dest.length + 4))
    (u.skip 1 ('>' :: ')' :: t)) t
  have ended : ((u.skip 1 ('>' :: ')' :: t)).skip 1 (')' :: t)).pos
      = p.pos + (dest.length + 4) := by
    simp only [Place.skip, there, within]
    omega
  refine ⟨_, ended, ?_⟩
  rw [ended]
  refine first.trans (.trans (second.mono fun token reach => ?_) (third.trans (fourth.trans fifth)))
  omega

end Publication.Markdown.Token
