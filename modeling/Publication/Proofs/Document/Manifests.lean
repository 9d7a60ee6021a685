import Publication.Document.Resources
import Publication.Proofs.Document.Revision
import Publication.Proofs.FileSystem.Names
import Publication.Proofs.Naming.Claims

/-! The targets of a manifest. Each is a name of its own in the directory of the manifest, so no two
resources are published at the same place.
-/

namespace Publication

open Publication.Naming

/-- Names derived from a name are names. -/
theorem IsName.unique {base : String} (proper : IsName base) (taken : List String)
    : IsName (Naming.unique base taken) := by
  obtain ⟨k, same, _⟩ := exists_candidate_of_firstFree taken base taken.length 0
  rw [Naming.unique, same]
  cases k with
  | zero => exact proper
  | succ k =>
      have filled : 0 < base.toList.length := List.length_pos_iff.mpr proper.2.1
      have digits : 0 < (toString (k + 1)).toList.length := by
        rw [show toString (k + 1) = (k + 1).repr from rfl, Nat.toList_repr]
        exact Nat.length_toDigits_pos
      refine isName_of_length ?_ ?_
      · simp only [candidate, String.toList_append, List.mem_append, not_or]
        exact ⟨⟨not_mem_toString rfl, by decide⟩, proper.1⟩
      · simp only [candidate, String.toList_append, List.length_append]
        have mark : "_".toList.length = 1 := rfl
        omega

/-- What a file is published as is a name. -/
theorem Path.isName_publishedName (path : Path) : IsName path.publishedName := by
  cases named : path.fileName? with
  | none =>
      rw [publishedName, named, Option.getD_none]
      decide
  | some name =>
      rw [publishedName, named, Option.getD_some]
      exact (place_of_fileName? named).1

namespace Document

/-- The targets of a manifest are different names in its directory, in the order of the claims. -/
structure Manifest.Apart (m : Manifest) : Prop where
  targets : m.entries.map (·.target) = m.names.taken.reverse.map (m.directory ++ "/" ++ ·)
  distinct : m.names.taken.Nodup

/-- The names are names of files. -/
structure Manifest.Sound (m : Manifest) : Prop extends m.Apart where
  proper : ∀ name ∈ m.names.taken, IsName name

theorem Manifest.sound_empty (directory : String) : Manifest.Sound { directory := directory } where
  targets := rfl
  distinct := List.nodup_nil
  proper := fun _ member => absurd member List.not_mem_nil

section

variable {m : Manifest}

/-- A claim keeps the targets apart: its name was not taken. -/
theorem Manifest.Apart.claimAs (apart : m.Apart) (source : Path) (base : String)
    (essential : Bool)
    : (m.claimAs source base essential).2.Apart where
  targets := by
    simp [Manifest.claimAs, Registry.claim, apart.targets]
  distinct := List.nodup_cons.mpr ⟨unique_not_mem base m.names.taken, apart.distinct⟩

/-- Different names in one directory are different targets. -/
theorem Manifest.Apart.nodup_targets (apart : m.Apart) : (m.entries.map (·.target)).Nodup := by
  rw [apart.targets, List.Nodup, List.pairwise_map, List.pairwise_reverse]
  refine List.Pairwise.imp (fun other same => other ?_) apart.distinct
  have texts := congrArg String.toList same
  simp only [String.toList_append] at texts
  exact (String.toList_inj.mp (List.append_cancel_left texts)).symm

theorem Manifest.entries_claimAs (m : Manifest) (source : Path) (base : String) (essential : Bool)
    : (m.claimAs source base essential).2.entries
      = m.entries ++ [⟨source, (m.claimAs source base essential).1, essential⟩] :=
  rfl

/-- The target of a claim is none of the earlier ones. -/
theorem Manifest.Apart.target_ne_claimAs (apart : m.Apart) (source : Path) (base : String)
    (essential : Bool) {resource : Resource} (among : resource ∈ m.entries)
    : resource.target ≠ (m.claimAs source base essential).1 := by
  have targets := (apart.claimAs source base essential).nodup_targets
  rw [entries_claimAs, List.map_append] at targets
  exact (List.nodup_append.mp targets).2.2 _ (List.mem_map_of_mem among) _ List.mem_cons_self

theorem Manifest.Sound.claimAs (sound : m.Sound) (source : Path) {base : String}
    (proper : IsName base) (essential : Bool)
    : (m.claimAs source base essential).2.Sound where
  toApart := sound.toApart.claimAs source base essential
  proper := by
    intro name member
    rcases List.mem_cons.mp member with rfl | member
    · exact proper.unique m.names.taken
    · exact sound.proper name member

theorem Manifest.Sound.claim (sound : m.Sound) (source : Path) (essential : Bool)
    : (m.claim source essential).2.Sound :=
  sound.claimAs source source.isName_publishedName essential

theorem Manifest.Sound.visit (sound : m.Sound) (dir : Path) (node : Node)
    : (m.visit dir node).2.Sound := by
  simp only [Manifest.visit]
  split
  · exact sound.claim _ false
  · exact sound

end

theorem extractResources_eq (document : Node) (directory : String) (dir : Path)
    : extractResources document directory dir
      = ((document.revise (Manifest.visit dir) { directory := directory }).2,
        (document.revise (Manifest.visit dir) { directory := directory }).1) :=
  rfl

theorem directory_extractResources (document : Node) (directory : String) (dir : Path)
    : (extractResources document directory dir).1.directory = directory := by
  have kept (m : Manifest) (node : Node) (same : m.directory = directory)
      : (m.visit dir node).2.directory = directory := by
    simp only [Manifest.visit]
    split
    · exact same
    · exact same
  rw [extractResources_eq]
  exact Node.revise_keeps kept document { directory := directory } rfl

/-- The resources of a document have different targets. -/
theorem sound_extractResources (document : Node) (directory : String) (dir : Path)
    : (extractResources document directory dir).1.Sound :=
  Node.revise_keeps (fun _ node sound => sound.visit dir node) document _
    (Manifest.sound_empty directory)

/-- The targets of a manifest lead to different places, seen from any directory. -/
theorem Manifest.Sound.nodup_places {m : Manifest} (sound : m.Sound) (dir : Path) (here : Location)
    : (m.entries.map fun r => (dir.child r.target).place here).Nodup := by
  obtain ⟨outer, _, leads⟩ := (folder_child_of_separator dir m.directory).leads here
  have places : m.entries.map (fun r => (dir.child r.target).place here)
      = m.names.taken.reverse.map fun name => outer ++ [name] := by
    have targets := congrArg (List.map fun target => (dir.child target).place here) sound.targets
    simp only [List.map_map, Function.comp_def] at targets
    rw [targets]
    refine List.map_congr_left fun name member => ?_
    exact (leads name (sound.proper name (List.mem_reverse.mp member))).1
  rw [places, List.Nodup, List.pairwise_map, List.pairwise_reverse]
  refine List.Pairwise.imp (fun apart same => apart ?_) sound.distinct
  exact (List.append_singleton_inj.mp same).2.symm

end Document
end Publication
