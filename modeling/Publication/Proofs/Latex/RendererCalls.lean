import Publication.Proofs.Latex.Rendering

/-! Calls of a renderer. Each step of rendering makes its own calls, and a step that fails is the
last one to make any; so what is called is the beginning of one list.
-/

namespace Publication.Latex

/-- Work makes the calls of a list in order: all of them if it succeeds, and otherwise the first of
them.
-/
def Makes {ε α : Type} (work : Work ε α) (calls : List Call) : Prop :=
  ∀ bench, ∃ made,
    made <+: calls
    ∧ (work bench).2.calls = bench.calls ++ made
    ∧ ∀ a, (work bench).1 = .ok a → made = calls

section

variable {ε ε' α β : Type} {work : Work ε α} {calls others : List Call}

/-- Work that leaves the calls as they are makes none. -/
theorem makes_nil (kept : ∀ bench, (work bench).2.calls = bench.calls) : Makes work [] :=
  fun bench => ⟨[], List.nil_prefix, by rw [kept, List.append_nil], fun _ _ => rfl⟩

theorem makes_onFiles (convert : ε → ε') (task : ExceptT ε (StateM FileSystem) α)
    : Makes (onFiles convert task) [] := by
  refine makes_nil fun bench => ?_
  simp only [onFiles]
  split <;> rfl

theorem makes_call {Job : Type} (tool : Tool Job) (job : Job) (note : Call)
    : Makes (call tool job note) [note] :=
  fun _ => ⟨[note], List.prefix_refl _, rfl, fun _ _ => rfl⟩

/-- A sequence makes the calls of its steps one after the other. -/
theorem Makes.bind {later : α → Work ε β} (first : Makes work calls)
    (next : ∀ a, Makes (later a) others)
    : Makes (work >>= later) (calls ++ others) := by
  intro bench
  obtain ⟨made, begun, called, whole⟩ := first bench
  rcases done : work bench with ⟨e | a, middle⟩
  · rw [done] at called
    rw [bind_of_error done]
    exact ⟨made, begun.trans (List.prefix_append _ _), called, fun _ ended => nomatch ended⟩
  · rw [done] at called whole
    obtain ⟨more, started, calledLater, all⟩ := next a middle
    rw [bind_of_ok done]
    obtain rfl := whole a rfl
    refine ⟨made ++ more, (List.prefix_append_right_inj made).mpr started, ?_, fun b ended => ?_⟩
    · rw [calledLater, called, List.append_assoc]
    · rw [all b ended]

/-- Typesetting calls its tool once for each pass, by induction on their number. -/
theorem makes_typesetAll (renderer : Renderer) (job : TypesetJob) (source : String) (passes : Nat)
    : Makes (typesetAll renderer job source passes)
        (List.replicate passes (.typeset job source)) := by
  induction passes with
  | zero => exact makes_nil fun _ => rfl
  | succ passes ih => exact (makes_call _ _ _).bind fun _ => ih

end

theorem makes_makeParent (png : Path) : Makes (makeParent png) [] := by
  rw [makeParent]
  split
  · exact makes_onFiles _ _
  · exact makes_nil fun _ => rfl

/-- The calls for an image: two passes that typeset its document in a scratch directory, and then
one that draws it.
-/
def callsFor (scratch baseDir png : Path) (source : String) : List Call :=
  let job : TypesetJob := ⟨scratch.child "file.tex", scratch, baseDir⟩
  [.typeset job source, .typeset job source,
    .rasterize ⟨scratch.child "file.pdf", png, scratch⟩]

section

variable (renderer : Renderer) (baseDir : Path) (source : String) (png : Path) (pdf : Option Path)

theorem makes_renderIn (scratch : Path)
    : Makes (renderIn scratch renderer baseDir source png pdf)
        (callsFor scratch baseDir png source) := by
  have drawn : Makes (renderIn scratch renderer baseDir source png none)
      (callsFor scratch baseDir png source) := by
    rw [renderIn_none]
    refine (makes_onFiles _ _).bind fun _ => ?_
    refine (makes_typesetAll _ _ _ typesetPasses).bind fun _ => ?_
    exact (makes_makeParent png).bind fun _ => makes_call _ _ _
  cases pdf with
  | none => exact drawn
  | some pdf =>
      rw [renderIn_some]
      exact drawn.bind fun _ => makes_onFiles _ _

/-- Rendering makes the calls for its image from the scratch directory that is free. -/
theorem exists_calls_of_render (bench : Bench)
    : ∃ made,
        made <+: callsFor (pathTo (freshScratch bench.files)) baseDir png source
        ∧ (render renderer baseDir source png pdf bench).2.calls = bench.calls ++ made
        ∧ ((render renderer baseDir source png pdf bench).1 = .ok () →
            made = callsFor (pathTo (freshScratch bench.files)) baseDir png source) := by
  rcases render_cases renderer baseDir source png pdf bench with
    ⟨error, ended⟩ | ⟨scratch, files, result, middle, named, _, inside, ended⟩
  · rw [ended]
    exact ⟨[], List.nil_prefix, (List.append_nil _).symm, fun done => nomatch done⟩
  · obtain ⟨made, begun, called, whole⟩ :=
      makes_renderIn renderer baseDir source png pdf (pathTo scratch) ⟨files, bench.calls⟩
    rw [inside] at called whole
    rw [ended, ← named]
    exact ⟨made, begun, called, whole ()⟩

end

end Publication.Latex
