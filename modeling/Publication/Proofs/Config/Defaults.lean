import Mathlib.Data.List.Nodup
import Publication.Config.Load
import Publication.Proofs.Toml.Parsed

/-! Two ways to the default settings. A table of settings may be laid over the table of the defaults
before it is read, or be read alone, with what it does not give left as it is by default. Each
setting is read into a part of its own, so both ways lead to the same settings.
-/

namespace Publication.Config

open Publication.Toml

-----------------------------------------------------------------------------------------
-- Settings in a structure
-----------------------------------------------------------------------------------------

/-- A structure has a setting as it is given: to read the setting changes nothing. -/
def Setting.Holds {α : Type} (setting : Setting α) (value : Value) (a : α) : Prop :=
  setting.read value a = .ok a

/-- What a setting is read from decides what it is, and it is put over what was there before. -/
def Setting.Puts {α : Type} (setting : Setting α) : Prop :=
  ∃ (β : Type) (parse : Value → Except DecodeError β) (put : α → β → α),
    (∀ value a, setting.read value a = (parse value).map (put a))
    ∧ ∀ a x y, put (put a x) y = put a y

/-- The settings of a structure are put into parts of their own, which make up the whole. -/
structure Separate {α : Type} (fields : List (Setting α)) : Prop where
  distinct : (fields.map (·.key)).Nodup
  puts : ∀ f ∈ fields, f.Puts
  apart
    : ∀ f ∈ fields, ∀ g ∈ fields, f.key ≠ g.key →
        ∀ v w a b, f.read v a = .ok b → (g.Holds w b ↔ g.Holds w a)
  whole : ∀ a b, (∀ f ∈ fields, ∃ v, f.Holds v a ∧ f.Holds v b) → a = b

section

variable {α : Type} {fields : List (Setting α)} {start a b : α} {entry : String × Value}
  {entries : List (String × Value)}

theorem map_eq_ok_iff {ε β γ : Type} {f : β → γ} {result : Except ε β} {c : γ}
    : result.map f = .ok c ↔ ∃ x, result = .ok x ∧ f x = c := by
  cases result with
  | error e => simp [Except.map]
  | ok x => simp [Except.map]

/-- What was read is there. -/
theorem Setting.Puts.holds {f : Setting α} (puts : f.Puts) {value : Value}
    (read : f.read value a = .ok b)
    : f.Holds value b := by
  obtain ⟨β, parse, put, reads, replaces⟩ := puts
  rw [reads] at read
  obtain ⟨x, known, rfl⟩ := map_eq_ok_iff.mp read
  rw [Setting.Holds, reads]
  exact map_eq_ok_iff.mpr ⟨x, known, replaces a x x⟩

/-- What is there in one structure can be read into any other. -/
theorem Setting.Puts.exists_read {f : Setting α} (puts : f.Puts) {value : Value}
    (held : f.Holds value a) (b : α)
    : ∃ c, f.read value b = .ok c := by
  obtain ⟨β, parse, put, reads, _⟩ := puts
  rw [Setting.Holds, reads] at held
  obtain ⟨x, known, _⟩ := map_eq_ok_iff.mp held
  rw [reads]
  exact ⟨_, map_eq_ok_iff.mpr ⟨x, known, rfl⟩⟩

theorem readSetting_eq_ok_iff (separate : Separate fields)
    : readSetting fields a entry = .ok b
      ↔ ∃ f ∈ fields, f.key = entry.1 ∧ f.read entry.2 a = .ok b := by
  simp only [readSetting]
  cases found : fields.find? (·.key = entry.1) with
  | none =>
      constructor
      · intro same
        cases same
      · rintro ⟨f, member, key, _⟩
        exact absurd (decide_eq_true key) (List.find?_eq_none.mp found f member)
  | some f =>
      have member := List.mem_of_find?_eq_some found
      have key : f.key = entry.1 := of_decide_eq_true (List.find?_some found :)
      constructor
      · intro read
        refine ⟨f, member, key, ?_⟩
        cases result : f.read entry.2 a with
        | ok c => simpa [result] using read
        | error e => simp [result] at read
      · rintro ⟨g, among, same, read⟩
        obtain rfl : f = g :=
          List.inj_on_of_nodup_map separate.distinct member among (key.trans same.symm)
        simp [read]

/-- What is given for each key, with a value in the place of that for one key. -/
def givenWith (key : String) (value : Value) (given : String → Value) : String → Value :=
  fun other => if key = other then value else given other

/-- A key that is met once is given what stands in its first entry. -/
theorem getD_givenWith {key : String} (fresh : key ∉ entries.map (·.1)) (value : Value)
    (given : String → Value) (other : String)
    : (get? other entries).getD (givenWith key value given other)
      = (get? other ((key, value) :: entries)).getD (given other) := by
  by_cases same : key = other
  · subst same
    simp [get?, givenWith, get?_eq_none_iff.mpr fresh]
  · simp [get?, givenWith, same]

/-- Reading a setting gives it its value and leaves the others as they are given. -/
theorem Separate.holds_of_read (separate : Separate fields) {f : Setting α} (member : f ∈ fields)
    {value : Value} (read : f.read value a = .ok b) {given : String → Value}
    (initial : ∀ g ∈ fields, g.Holds (given g.key) a)
    : ∀ g ∈ fields, g.Holds (givenWith f.key value given g.key) b := by
  intro g among
  by_cases same : f.key = g.key
  · obtain rfl := List.inj_on_of_nodup_map separate.distinct member among same
    simpa [givenWith] using (separate.puts f member).holds read
  · simp only [givenWith, same, if_false]
    exact (separate.apart f member g among same _ _ _ _ read).mpr (initial g among)

/-- Entries are read into a structure exactly if all their keys are known, and in the result each
setting is as its entry gives it, or else as it was given before. By induction on the entries, each
of which replaces what was given for its key.
-/
theorem foldlM_readSetting_eq_ok_iff (separate : Separate fields)
    (distinct : (entries.map (·.1)).Nodup) {given : String → Value}
    (initial : ∀ f ∈ fields, f.Holds (given f.key) start)
    : entries.foldlM (readSetting fields) start = .ok a
      ↔ (∀ entry ∈ entries, entry.1 ∈ fields.map (·.key))
        ∧ ∀ f ∈ fields, f.Holds ((get? f.key entries).getD (given f.key)) a := by
  induction entries generalizing start given with
  | nil =>
      constructor
      · intro same
        cases same
        exact ⟨List.forall_mem_nil _, initial⟩
      · rintro ⟨_, final⟩
        exact congrArg Except.ok
          (separate.whole start a fun f member => ⟨_, initial f member, final f member⟩)
  | cons entry rest ih =>
      obtain ⟨key, value⟩ := entry
      obtain ⟨fresh, unlike⟩ := List.nodup_cons.mp distinct
      have later := getD_givenWith fresh value given
      simp only [List.foldlM_cons, List.forall_mem_cons, ← later]
      constructor
      · intro done
        cases first : readSetting fields start (key, value) with
        | error e =>
            rw [first] at done
            cases done
        | ok middle =>
            rw [first] at done
            obtain ⟨f, member, rfl, read⟩ := (readSetting_eq_ok_iff separate).mp first
            have next := separate.holds_of_read member read initial
            obtain ⟨known, final⟩ := (ih unlike next).mp done
            exact ⟨⟨List.mem_map_of_mem member, known⟩, final⟩
      · rintro ⟨⟨known, others⟩, final⟩
        obtain ⟨f, member, rfl⟩ := List.mem_map.mp known
        have held := final f member
        rw [later] at held
        simp only [get?, if_true, Option.getD_some] at held
        obtain ⟨middle, read⟩ := (separate.puts f member).exists_read held start
        have first : readSetting fields start (f.key, value) = .ok middle :=
          (readSetting_eq_ok_iff separate).mpr ⟨f, member, rfl, read⟩
        rw [first]
        have next := separate.holds_of_read member read initial
        exact (ih unlike next).mpr ⟨others, final⟩

-----------------------------------------------------------------------------------------
-- Tables laid over others
-----------------------------------------------------------------------------------------

/-- A table gives all settings of a structure, and what is laid over one of them counts alone. -/
structure Gives (fields : List (Setting α)) (table : List (String × Value)) (default : α) : Prop
    where
  increasing : Increasing table
  known : ∀ entry ∈ table, entry.1 ∈ fields.map (·.key)
  settings
    : ∀ f ∈ fields,
        ∃ value,
          get? f.key table = some value
          ∧ f.Holds value default
          ∧ ∀ overlay : Value, overlay.Proper →
              ∀ a, f.Holds (merge value overlay) a ↔ f.Holds overlay a

/-- A value that is laid over a table of all settings is read as it would be alone. -/
theorem readStructure_merge {name : String} {table : List (String × Value)} {default : α}
    (separate : Separate fields) (gives : Gives fields table default) {overlay : Value}
    (proper : overlay.Proper)
    : readStructure name fields default (merge (.table table) overlay) = .ok a
      ↔ readStructure name fields default overlay = .ok a := by
  cases proper with
  | @table entries increasing inner =>
      let given : String → Value := fun key => (get? key table).getD (.boolean false)
      have initial : ∀ f ∈ fields, f.Holds (given f.key) default := by
        intro f member
        obtain ⟨value, found, held, _⟩ := gives.settings f member
        simpa [given, found] using held
      have merged := (gives.increasing.mergeFields entries).nodup
      rw [merge_table_table]
      simp only [readStructure]
      rw [foldlM_readSetting_eq_ok_iff separate merged initial,
        foldlM_readSetting_eq_ok_iff separate increasing.nodup initial]
      refine and_congr ?_ (forall₂_congr fun f member => ?_)
      · have keys (entries : List (String × Value))
            : (∀ entry ∈ entries, entry.1 ∈ fields.map (·.key))
              ↔ ∀ key ∈ entries.map (·.1), key ∈ fields.map (·.key) :=
          List.forall_mem_map.symm
        have stock := (keys table).mp gives.known
        rw [keys, keys]
        refine ⟨fun all key among => all key (mem_keys_mergeFields.mpr (.inr among)), ?_⟩
        intro all key among
        exact (mem_keys_mergeFields.mp among).elim (stock key) (all key)
      · obtain ⟨value, found, _, alone⟩ := gives.settings f member
        rw [get?_mergeFields increasing.nodup]
        cases laidOver : get? f.key entries with
        | none => simp [given, found]
        | some laid =>
            simpa [found] using alone laid (inner _ (mem_of_get? laidOver)) a
  | _ =>
      rw [merge_leaf]
      exact fun _ same => nomatch same

end

-----------------------------------------------------------------------------------------
-- The settings of the compiler
-----------------------------------------------------------------------------------------

/-- What is read from one value is one thing. -/
theorem eq_of_parse {β : Type} {parse : Value → Except DecodeError β} {first second : β}
    (same
      : ∃ value,
          (∃ x, parse value = .ok x ∧ x = first) ∧ ∃ x, parse value = .ok x ∧ x = second)
    : first = second := by
  obtain ⟨value, ⟨x, left, rfl⟩, y, right, rfl⟩ := same
  exact Except.ok.inj (left.symm.trans right)

theorem separate_latexSettings : Separate latexSettings where
  distinct := by decide
  puts := by
    simp only [latexSettings, List.forall_mem_cons]
    refine ⟨?_, ?_, ?_, ?_, ?_, ?_, ?_, List.forall_mem_nil _⟩
    all_goals exact ⟨_, _, _, fun _ _ => rfl, fun _ _ _ => rfl⟩
  apart := by
    intro f member g among other v w a b read
    simp only [latexSettings, List.mem_cons, List.not_mem_nil, or_false] at member among
    cases a
    rcases member with rfl | rfl | rfl | rfl | rfl | rfl | rfl
    all_goals
      obtain ⟨x, _, rfl⟩ := map_eq_ok_iff.mp read
      rcases among with rfl | rfl | rfl | rfl | rfl | rfl | rfl
      all_goals first
        | exact absurd rfl other
        | simp only [Setting.Holds, map_eq_ok_iff, LatexSettings.mk.injEq, true_and, and_true]
  whole := by
    rintro ⟨⟩ ⟨⟩ same
    simp only [latexSettings, List.forall_mem_cons, Setting.Holds, map_eq_ok_iff,
      LatexSettings.mk.injEq, true_and, and_true] at same ⊢
    obtain ⟨typesetter, arguments, rasterizer, density, resize, timeout, images, _⟩ := same
    exact ⟨eq_of_parse typesetter, eq_of_parse arguments, eq_of_parse rasterizer,
      eq_of_parse density, eq_of_parse resize, eq_of_parse timeout, eq_of_parse images⟩

theorem separate_thumbnailSettings : Separate thumbnailSettings where
  distinct := by decide
  puts := by
    simp only [thumbnailSettings, List.forall_mem_cons]
    refine ⟨?_, ?_, List.forall_mem_nil _⟩
    all_goals exact ⟨_, _, _, fun _ _ => rfl, fun _ _ _ => rfl⟩
  apart := by
    intro f member g among other v w a b read
    simp only [thumbnailSettings, List.mem_cons, List.not_mem_nil, or_false] at member among
    cases a
    rcases member with rfl | rfl
    all_goals
      obtain ⟨x, _, rfl⟩ := map_eq_ok_iff.mp read
      rcases among with rfl | rfl
      all_goals first
        | exact absurd rfl other
        | simp only [Setting.Holds, map_eq_ok_iff, ThumbnailSettings.mk.injEq, true_and, and_true]
  whole := by
    rintro ⟨⟩ ⟨⟩ same
    simp only [thumbnailSettings, List.forall_mem_cons, Setting.Holds, map_eq_ok_iff,
      ThumbnailSettings.mk.injEq, true_and, and_true] at same ⊢
    obtain ⟨enabled, size, _⟩ := same
    exact ⟨eq_of_parse enabled, eq_of_parse size⟩

theorem separate_groups : Separate groups where
  distinct := by decide
  puts := by
    simp only [groups, List.forall_mem_cons]
    refine ⟨?_, ?_, List.forall_mem_nil _⟩
    all_goals exact ⟨_, _, _, fun _ _ => rfl, fun _ _ _ => rfl⟩
  apart := by
    intro f member g among other v w a b read
    simp only [groups, List.mem_cons, List.not_mem_nil, or_false] at member among
    cases a
    rcases member with rfl | rfl
    all_goals
      obtain ⟨x, _, rfl⟩ := map_eq_ok_iff.mp read
      rcases among with rfl | rfl
      all_goals first
        | exact absurd rfl other
        | simp only [Setting.Holds, map_eq_ok_iff, Config.mk.injEq, true_and, and_true]
  whole := by
    rintro ⟨⟩ ⟨⟩ same
    simp only [groups, List.forall_mem_cons, Setting.Holds, map_eq_ok_iff, Config.mk.injEq,
      true_and, and_true] at same ⊢
    obtain ⟨latex, thumbnails, _⟩ := same
    exact ⟨eq_of_parse latex, eq_of_parse thumbnails⟩

-----------------------------------------------------------------------------------------
-- The table of the defaults
-----------------------------------------------------------------------------------------

/-- The fields of a table. -/
def fieldsOf : Value → List (String × Value)
  | .table fields => fields
  | _ => []

/-- The default settings of LaTeX as fields. -/
def latexFields : List (String × Value) :=
  fieldsOf ((get? "latex" (fieldsOf defaults)).getD defaults)

/-- The default settings of thumbnails as fields. -/
def thumbnailFields : List (String × Value) :=
  fieldsOf ((get? "thumbnails" (fieldsOf defaults)).getD defaults)

theorem defaults_eq
    : defaults = .table [("latex", .table latexFields), ("thumbnails", .table thumbnailFields)] :=
  rfl

/-- A value that is no table is replaced by what is laid over it. -/
theorem holds_merge_leaf {α : Type} {setting : Setting α} {value : Value}
    (leaf : ∀ fields, value ≠ .table fields) (overlay : Value) (_ : overlay.Proper) (a : α)
    : setting.Holds (merge value overlay) a ↔ setting.Holds overlay a := by
  rw [merge_of_leaf leaf]

theorem gives_latexFields : Gives latexSettings latexFields {} where
  increasing := by decide
  known := by decide
  settings := by
    simp only [latexSettings, List.forall_mem_cons]
    refine ⟨?_, ?_, ?_, ?_, ?_, ?_, ?_, List.forall_mem_nil _⟩
    all_goals exact ⟨_, rfl, rfl, holds_merge_leaf fun _ same => nomatch same⟩

theorem gives_thumbnailFields : Gives thumbnailSettings thumbnailFields {} where
  increasing := by decide
  known := by decide
  settings := by
    simp only [thumbnailSettings, List.forall_mem_cons]
    refine ⟨?_, ?_, List.forall_mem_nil _⟩
    all_goals exact ⟨_, rfl, rfl, holds_merge_leaf fun _ same => nomatch same⟩

theorem gives_defaults
    : Gives groups [("latex", .table latexFields), ("thumbnails", .table thumbnailFields)] {} where
  increasing := by decide
  known := by decide
  settings := by
    simp only [groups, List.forall_mem_cons]
    refine ⟨⟨_, rfl, rfl, fun overlay proper c => ?_⟩, ⟨_, rfl, rfl, fun overlay proper c => ?_⟩,
      List.forall_mem_nil _⟩
    · simp only [Setting.Holds, map_eq_ok_iff,
        readStructure_merge separate_latexSettings gives_latexFields proper]
    · simp only [Setting.Holds, map_eq_ok_iff,
        readStructure_merge separate_thumbnailSettings gives_thumbnailFields proper]

/-- A value laid over the defaults is read as it would be alone. -/
theorem decode_merge_defaults {overlay : Value} (proper : overlay.Proper) {config : Config}
    : decode (merge defaults overlay) = .ok config ↔ decode overlay = .ok config := by
  rw [defaults_eq]
  exact readStructure_merge separate_groups gives_defaults proper

-----------------------------------------------------------------------------------------
-- Settings over the defaults
-----------------------------------------------------------------------------------------

/-- Settings that make sense are those of a base with an overlay, if there is one. -/
theorem resolve_eq_ok_iff {base overlay : Value} {config : Config}
    : resolve base (some overlay) = .ok config
      ↔ decode (merge base overlay) = .ok config ∧ config.invalid? = none := by
  cases read : decode (merge base overlay) with
  | error e => simp [resolve, read]
  | ok found =>
      cases wrong : found.invalid? with
      | none =>
          simp only [resolve, read, wrong, Except.ok.injEq]
          exact ⟨fun same => ⟨same, same ▸ wrong⟩, fun held => held.1⟩
      | some reason =>
          simp only [resolve, read, wrong, Except.ok.injEq, reduceCtorEq, false_iff]
          rintro ⟨rfl, valid⟩
          cases wrong.symm.trans valid

/-- A value laid over the table of the defaults leads to the settings that it holds alone, with all
others as they are by default, if they make sense; where it holds none, or they make no sense, there
are none either way.
-/
theorem resolve_defaults_eq_ok_iff {overlay : Value} (proper : overlay.Proper) (config : Config)
    : resolve defaults (some overlay) = .ok config
      ↔ decode overlay = .ok config ∧ config.invalid? = none := by
  rw [resolve_eq_ok_iff, decode_merge_defaults proper]

/-- What is read of a file that replaces one setting of LaTeX. -/
def fineImages : Value := (parse? "[latex]\ndensity = 600\n").get (by decide +kernel)

/-- The other settings are as they are by default. -/
theorem resolve_fineImages
    : fineImages.Proper
      ∧ resolve defaults (some fineImages)
        = .ok { latex := { density := 600 }, thumbnails := {} } := by
  have proper : fineImages.Proper := proper_of_parse? (Option.some_get _).symm
  refine ⟨proper, (resolve_defaults_eq_ok_iff proper _).mpr ⟨?_, ?_⟩⟩
  · decide +kernel
  · decide

end Publication.Config
