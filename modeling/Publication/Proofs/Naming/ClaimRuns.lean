import Mathlib.Data.Finset.Card
import Mathlib.Data.List.Nodup
import Publication.Proofs.Naming.Claims

/-! Names claimed one after another. Each is the first of its candidates that was not handed out
before, and the search for it is over before its counter is.
-/

namespace Publication.Naming

-----------------------------------------------------------------------------------------
-- The search for a free name
-----------------------------------------------------------------------------------------

/-- The candidate with a number is the first that is not taken. -/
structure IsFirstFree (taken : List String) (base : String) (number : Nat) : Prop where
  free : candidate base number ∉ taken
  earlier : ∀ i < number, candidate base i ∈ taken

theorem exists_isFirstFree (base : String) (taken : List String)
    : ∃ number, unique base taken = candidate base number ∧ IsFirstFree taken base number := by
  obtain ⟨number, found, earlier⟩ := exists_candidate_of_firstFree taken base taken.length 0
  refine ⟨number, found, ?_, fun i less => earlier i (Nat.zero_le i) less⟩
  rw [← found]
  exact unique_not_mem base taken

/-- The search as a loop with a counter: while the name at hand is taken, it becomes the base behind
the counter, which goes up by one and holds at most `capacity`. The loop makes so many tests before
it ends with the name that it found.
-/
inductive Search (capacity : Nat) (taken : List String) (base : String)
    : (counter : Nat) → (name : String) → (tests : Nat) → (found : String) → Prop
  | stop {counter : Nat} {name : String} (free : name ∉ taken)
    : Search capacity taken base counter name 1 name
  | next {counter tests : Nat} {name found : String} (used : name ∈ taken)
    (room : counter < capacity)
    (later
      : Search capacity taken base (counter + 1) (toString counter ++ "_" ++ base) tests found)
    : Search capacity taken base counter name (tests + 1) found

section

variable {taken : List String} {base : String} {number : Nat}

/-- The candidates before the first free one are different names that are taken. -/
theorem IsFirstFree.le_card (first : IsFirstFree taken base number)
    : number ≤ taken.toFinset.card := by
  have tried : (Finset.range number).image (candidate base) ⊆ taken.toFinset := by
    intro name member
    obtain ⟨i, less, rfl⟩ := Finset.mem_image.mp member
    exact List.mem_toFinset.mpr (first.earlier i (Finset.mem_range.mp less))
  calc number = ((Finset.range number).image (candidate base)).card := by
        rw [Finset.card_image_of_injective _ fun _ _ => candidate_inj, Finset.card_range]
    _ ≤ taken.toFinset.card := Finset.card_le_card tried

/-- The loop goes from any candidate on to the first free one, by induction on how many are between.
-/
theorem IsFirstFree.search {capacity k : Nat} (more : Nat)
    (first : IsFirstFree taken base (k + more)) (room : k + more < capacity)
    : Search capacity taken base (k + 1) (candidate base k) (more + 1)
        (candidate base (k + more)) := by
  induction more generalizing k with
  | zero => exact .stop first.free
  | succ more ih =>
      have shifted : k + (more + 1) = k + 1 + more := by omega
      refine .next (first.earlier k (by omega)) (by omega) ?_
      rw [shifted] at first room ⊢
      exact ih first room

end

/-- The loop finds the name that is handed out, after no more tests than there are names taken and
one, if its counter holds a number greater than that of the names.
-/
theorem exists_search (base : String) (taken : List String) {capacity : Nat}
    (room : taken.toFinset.card < capacity)
    : ∃ tests ≤ taken.toFinset.card + 1,
        Search capacity taken base 1 base tests (unique base taken) := by
  obtain ⟨number, found, first⟩ := exists_isFirstFree base taken
  have bound := first.le_card
  have zero : 0 + number = number := Nat.zero_add number
  have search := IsFirstFree.search number (zero.symm ▸ first) (by omega : 0 + number < capacity)
  rw [zero, ← found] at search
  exact ⟨number + 1, Nat.succ_le_succ bound, search⟩

-----------------------------------------------------------------------------------------
-- Runs of claims
-----------------------------------------------------------------------------------------

/-- How a name comes from its base behind earlier names: it is the base, or the base behind the
least number that makes it a new name.
-/
inductive Derives (earlier : List String) (base : String) : String → Prop
  | plain (free : base ∉ earlier) : Derives earlier base base
  | numbered {k : Nat} (used : base ∈ earlier) (positive : 1 ≤ k)
    (free : toString k ++ "_" ++ base ∉ earlier)
    (least : ∀ j, 1 ≤ j → j < k → toString j ++ "_" ++ base ∈ earlier)
    : Derives earlier base (toString k ++ "_" ++ base)

theorem derives_unique (base : String) (taken : List String)
    : Derives taken base (unique base taken) := by
  obtain ⟨number, found, first⟩ := exists_isFirstFree base taken
  rw [found]
  cases number with
  | zero => exact .plain first.free
  | succ number =>
      refine .numbered (first.earlier 0 (Nat.succ_pos number)) (Nat.succ_pos number) first.free ?_
      intro j positive less
      obtain ⟨i, rfl⟩ := Nat.exists_eq_add_of_le' positive
      exact first.earlier (i + 1) less

/-- The order of the earlier names does not matter. -/
theorem Derives.of_mem_iff {earlier others : List String} {base name : String}
    (derives : Derives earlier base name) (same : ∀ other, other ∈ earlier ↔ other ∈ others)
    : Derives others base name := by
  cases derives with
  | plain free => exact .plain (mt (same _).mpr free)
  | numbered used positive free least =>
      exact .numbered ((same _).mp used) positive (mt (same _).mpr free)
        fun j positive less => (same _).mp (least j positive less)

namespace Registry

/-- The registry after names for bases have been claimed. -/
def after (names : Registry) (bases : List String) : Registry :=
  ⟨(names.claimAll bases).reverse ++ names.taken⟩

theorem after_cons (names : Registry) (base : String) (bases : List String)
    : names.after (base :: bases) = (names.claim base).2.after bases := by
  simp [after, claimAll, claim]

theorem after_nil (names : Registry) : names.after [] = names := by
  simp [after, claimAll]

/-- Claims go on where earlier ones have ended, by induction on the earlier ones. -/
theorem after_append (names : Registry) (bases others : List String)
    : names.after (bases ++ others) = (names.after bases).after others := by
  induction bases generalizing names with
  | nil => rw [after_nil]; rfl
  | cons base bases ih => rw [List.cons_append, after_cons, after_cons, ih]

/-- The names are those of the earlier claims and then the others, by induction on the earlier ones.
-/
theorem claimAll_append (names : Registry) (bases others : List String)
    : names.claimAll (bases ++ others)
      = names.claimAll bases ++ (names.after bases).claimAll others := by
  induction bases generalizing names with
  | nil => rfl
  | cons base bases ih =>
      rw [after_cons]
      exact congrArg (_ :: ·) (ih _)

theorem length_claimAll (names : Registry) (bases : List String)
    : (names.claimAll bases).length = bases.length := by
  induction bases generalizing names with
  | nil => rfl
  | cons base bases ih => exact congrArg (· + 1) (ih _)

/-- Names that are claimed differ from those that were taken and from each other, by induction on
their bases.
-/
theorem nodup_claimAll (names : Registry) (bases : List String)
    : (names.claimAll bases).Nodup ∧ ∀ name ∈ names.claimAll bases, name ∉ names.taken := by
  induction bases generalizing names with
  | nil => exact ⟨List.nodup_nil, List.forall_mem_nil _⟩
  | cons base bases ih =>
      obtain ⟨distinct, fresh⟩ := ih (names.claim base).2
      refine ⟨List.nodup_cons.mpr ⟨fun again => ?_, distinct⟩, ?_⟩
      · exact fresh _ again List.mem_cons_self
      · refine List.forall_mem_cons.mpr ⟨unique_not_mem base names.taken, fun name later => ?_⟩
        exact fun taken => fresh name later (List.mem_cons_of_mem _ taken)

/-- Names derived from plain words are plain words, by induction on these. -/
theorem isPlain_of_mem_claimAll {names : Registry} {bases : List String}
    (plain : ∀ base ∈ bases, IsPlain base)
    : ∀ name ∈ names.claimAll bases, IsPlain name := by
  induction bases generalizing names with
  | nil => exact List.forall_mem_nil _
  | cons base bases ih =>
      obtain ⟨first, others⟩ := List.forall_mem_cons.mp plain
      exact List.forall_mem_cons.mpr ⟨first.unique names.taken, ih others⟩

/-- The name for a base behind others is the first free one behind theirs. -/
theorem getElem?_claimAll (names : Registry) (bases : List String) (base : String)
    (others : List String)
    : (names.claimAll (bases ++ base :: others))[bases.length]?
      = some (unique base (names.after bases).taken) := by
  have length := names.length_claimAll bases
  rw [claimAll_append, List.getElem?_append_right (Nat.le_of_eq length), length, Nat.sub_self]
  rfl

/-- The name for a base is derived from it behind the names for the bases before it. -/
theorem derives_claimAll {bases : List String} {i : Nat} {base : String}
    (there : bases[i]? = some base)
    : ∃ name,
        (empty.claimAll bases)[i]? = some name
        ∧ Derives ((empty.claimAll bases).take i) base name := by
  obtain ⟨bound, rfl⟩ := List.getElem?_eq_some_iff.mp there
  have whole : bases = bases.take i ++ bases[i] :: bases.drop (i + 1) := by
    rw [List.getElem_cons_drop, List.take_append_drop]
  have length : (bases.take i).length = i := List.length_take_of_le (Nat.le_of_lt bound)
  refine ⟨unique bases[i] (empty.after (bases.take i)).taken, ?_, ?_⟩
  · have name := empty.getElem?_claimAll (bases.take i) bases[i] (bases.drop (i + 1))
    rwa [← whole, length] at name
  · have earlier : (empty.claimAll bases).take i = empty.claimAll (bases.take i) := by
      conv => lhs; rw [whole, claimAll_append]
      rw [List.take_left' (by rw [length_claimAll, length])]
    rw [earlier]
    exact (derives_unique _ _).of_mem_iff fun other => by simp [after, empty]

end Registry

/-- Names that are claimed in order are pairwise different, each is its base or that behind the
least number that makes it new, and the search for one ends after at most one test more than there
are names taken. So it needs a counter for no more than their number and one: thirty-two bits are
enough for less than `2 ^ 32 - 1` names.
-/
theorem claimAll_in_order
    : (∀ bases,
        (Registry.empty.claimAll bases).Nodup
        ∧ (Registry.empty.claimAll bases).length = bases.length
        ∧ ∀ i base, bases[i]? = some base →
            ∃ name,
              (Registry.empty.claimAll bases)[i]? = some name
              ∧ Derives ((Registry.empty.claimAll bases).take i) base name)
      ∧ ∀ base taken capacity, taken.toFinset.card < capacity →
          ∃ tests ≤ taken.toFinset.card + 1,
            Search capacity taken base 1 base tests (unique base taken) := by
  refine ⟨fun bases => ⟨?_, ?_, ?_⟩, fun base taken capacity room => exists_search base taken room⟩
  · exact (Registry.empty.nodup_claimAll bases).1
  · exact Registry.empty.length_claimAll bases
  · exact fun i base there => Registry.derives_claimAll there

/-- A base that was claimed before, and also behind a number. -/
theorem claimAll_intro
    : Registry.empty.claimAll ["1_intro", "intro", "intro"] = ["1_intro", "intro", "2_intro"]
      ∧ Derives ["1_intro", "intro"] "intro" "2_intro"
      ∧ ∃ tests ≤ 3,
          Search (UInt32.size - 1) ["1_intro", "intro"] "intro" 1 "intro" tests "2_intro" := by
  have names : Registry.empty.claimAll ["1_intro", "intro", "intro"]
      = ["1_intro", "intro", "2_intro"] := by
    decide +kernel
  obtain ⟨name, third, derives⟩ :=
    (claimAll_in_order.1 ["1_intro", "intro", "intro"]).2.2 2 "intro" rfl
  rw [names] at third derives
  cases third
  have found : unique "intro" ["1_intro", "intro"] = "2_intro" := by decide +kernel
  have card : (["1_intro", "intro"] : List String).toFinset.card = 2 := by decide +kernel
  have search := claimAll_in_order.2 "intro" ["1_intro", "intro"] (UInt32.size - 1)
    (by rw [card]; decide)
  rw [found, card] at search
  exact ⟨names, derives, search⟩

end Publication.Naming
