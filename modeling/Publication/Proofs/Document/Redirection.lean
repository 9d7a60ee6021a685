import Publication.Proofs.Document.Manifests
import Publication.Proofs.Document.Parsed
import Publication.Proofs.Text.Lines

/-! References to local files. Each is redirected to a target of its own, in the order in which the
references are met, and the links and images that are replayed lead to the targets.
-/

namespace Publication

open Publication.Markdown Publication.Text

/-- Whether a reference names a local file. -/
def Path.IsLocal (reference : String) : Prop := ∃ rest, reference = scheme ++ rest

/-- Where a container leads, if it is a link or an image. -/
def Markdown.Tag.destination? : Tag → Option String
  | .link _ dest _ _ | .image _ dest _ _ => some dest
  | _ => none

/-- Where the links and the images of events lead. -/
def Markdown.destinations (events : List Event) : List String :=
  events.filterMap fun event => event.opened?.bind Tag.destination?

-----------------------------------------------------------------------------------------
-- Local references
-----------------------------------------------------------------------------------------

theorem Path.ofReference?_eq_some_iff {reference : String} {dir source : Path}
    : ofReference? reference dir = some source
      ↔ ∃ rest, reference = scheme ++ rest ∧ source = dir.join ⟨rest⟩ := by
  simp only [ofReference?, Option.map_eq_some_iff, strip?_eq_some_iff]
  constructor
  · rintro ⟨rest, whole, rfl⟩
    refine ⟨String.ofList rest, String.toList_inj.mp ?_, rfl⟩
    rw [whole, String.toList_append, String.toList_ofList]
  · rintro ⟨rest, rfl, rfl⟩
    exact ⟨rest.toList, String.toList_append, by rw [String.ofList_toList]⟩

/-- A name in a directory is no local reference: the name would begin with a separator. -/
theorem not_isLocal_target {directory name : String} (outer : IsName directory)
    (inner : IsName name)
    : ¬ Path.IsLocal (directory ++ "/" ++ name) := by
  rintro ⟨rest, same⟩
  have whole : directory.toList ++ '/' :: name.toList
      = "file:".toList ++ '/' :: ([] ++ '/' :: rest.toList) := by
    have texts := congrArg String.toList same
    simpa [Path.scheme] using texts
  have pieces := congrArg (splitOn '/') whole
  rw [splitOn_append, splitOn_append, splitOn_append, splitOn_of_not_mem outer.1,
    splitOn_of_not_mem inner.1, splitOn_of_not_mem (by decide), splitOn_of_not_mem (by decide)]
    at pieces
  exact inner.2.1 (List.cons.inj (List.cons.inj pieces).2).1

namespace Document

theorem localFile?_eq_some_iff {dir source : Path} {node : Node} {key : String}
    : localFile? dir node = some (key, source)
      ↔ referenceKey? node = some key
        ∧ ∃ rest, node.attr? key = some (Path.scheme ++ rest) ∧ source = dir.join ⟨rest⟩ := by
  simp only [localFile?, Option.bind_eq_some_iff, Option.map_eq_some_iff, Prod.mk.injEq,
    Path.ofReference?_eq_some_iff]
  constructor
  · rintro ⟨_, own, _, given, _, ⟨rest, rfl, rfl⟩, rfl, rfl⟩
    exact ⟨own, rest, given, rfl⟩
  · rintro ⟨own, rest, given, rfl⟩
    exact ⟨key, own, _, given, _, ⟨rest, rfl, rfl⟩, rfl, rfl⟩

/-- Where a node leads, if it refers to anything. -/
def Node.destination? (node : Node) : Option String := (referenceKey? node).map node.attrOr

/-- A node is replayed as what leads where it leads. -/
theorem Node.destination?_opening (node : Node)
    : node.opening?.bind Tag.destination? = node.destination? := by
  obtain ⟨kind, text, attrs, children⟩ := node
  cases kind <;> rfl

theorem Node.destinations_events {node : Node} (formed : node.WellFormed)
    : destinations node.events = node.preorder.filterMap Node.destination? := by
  rw [destinations, filterMap_events Tag.destination? formed]
  exact congrArg (node.preorder.filterMap ·) (funext Node.destination?_opening)

/-- A node that leads to a local file refers to it by an attribute. -/
theorem Node.attr?_of_isLocal {node : Node} {destination : String}
    (leads : node.destination? = some destination) (own : Path.IsLocal destination)
    : ∃ key, referenceKey? node = some key ∧ node.attr? key = some destination := by
  obtain ⟨key, refers, rfl⟩ := Option.map_eq_some_iff.mp leads
  refine ⟨key, refers, ?_⟩
  cases given : node.attr? key with
  | none =>
      obtain ⟨rest, same⟩ := own
      rw [attrOr, given] at same
      have texts := congrArg String.toList same
      rw [String.toList_append] at texts
      cases texts
  | some value => rw [attrOr, given, Option.getD_some]

-----------------------------------------------------------------------------------------
-- Redirection
-----------------------------------------------------------------------------------------

/-- How local references are recorded, seen from a directory. -/
def redirecting (dir : Path) : Recording Resource where
  records node resource key :=
    referenceKey? node = some key
    ∧ (∃ rest, node.attr? key = some (Path.scheme ++ rest) ∧ resource.source = dir.join ⟨rest⟩)
    ∧ resource.essential = false
  value := Resource.target

theorem guides_redirecting (dir : Path)
    : (redirecting dir).Guides Manifest.entries (Manifest.visit dir) := by
  intro m node
  cases found : localFile? dir node with
  | none =>
      refine .inl ⟨?_, by rw [Manifest.visit, found]⟩
      rintro resource key ⟨refers, ⟨rest, given, _⟩, _⟩
      rw [localFile?_eq_some_iff.mpr ⟨refers, rest, given, rfl⟩] at found
      cases found
  | some file =>
      obtain ⟨key, source⟩ := file
      obtain ⟨refers, rest, given, whole⟩ := localFile?_eq_some_iff.mp found
      refine .inr ⟨⟨source, (m.claim source false).1, false⟩, key,
        ⟨refers, ⟨rest, given, whole⟩, rfl⟩, ?_, ?_⟩
      · rw [Manifest.visit, found]
        rfl
      · rw [Manifest.visit, found]
        rfl

/-- Where references lead before and after the local ones are redirected to the targets in order.
-/
inductive Redirected : List String → List String → List String → Prop
  | nil : Redirected [] [] []
  | kept {destination : String} {rest targets after : List String}
      (other : ¬ Path.IsLocal destination)
      (later : Redirected rest targets after)
      : Redirected (destination :: rest) targets (destination :: after)
  | redirected {destination target : String} {rest targets after : List String}
      (own : Path.IsLocal destination)
      (later : Redirected rest targets after)
      : Redirected (destination :: rest) (target :: targets) (target :: after)

/-- If no target is a local reference, none is left. -/
theorem Redirected.not_isLocal {before targets after : List String}
    (led : Redirected before targets after)
    (plain : ∀ target ∈ targets, ¬ Path.IsLocal target)
    : ∀ destination ∈ after, ¬ Path.IsLocal destination := by
  induction led with
  | nil => exact List.forall_mem_nil _
  | kept other _ ih => exact List.forall_mem_cons.mpr ⟨other, ih plain⟩
  | redirected _ _ ih =>
      obtain ⟨own, others⟩ := List.forall_mem_cons.mp plain
      exact List.forall_mem_cons.mpr ⟨own, ih others⟩

theorem Node.destination?_congr {node revised : Node} (kind : revised.kind = node.kind)
    (attrs : revised.attrs = node.attrs)
    : revised.destination? = node.destination? := by
  obtain ⟨_, _, _, _⟩ := node
  obtain ⟨_, _, _, _⟩ := revised
  cases kind
  cases attrs
  rfl

/-- The nodes of a tree lead to the targets in order. -/
theorem redirected_of_holds {dir : Path} {before after : List Node} {entries : List Resource}
    (held : (redirecting dir).Holds before entries after)
    : Redirected (before.filterMap Node.destination?) (entries.map (·.target))
        (after.filterMap Node.destination?) := by
  induction held with
  | nil => exact .nil
  | @kept node revised _ _ _ other same _ ih =>
      rw [List.filterMap_cons, List.filterMap_cons,
        Node.destination?_congr same.kind same.attrs]
      cases leads : node.destination? with
      | none => exact ih
      | some destination =>
          refine .kept (fun own => ?_) ih
          obtain ⟨key, refers, given⟩ := Node.attr?_of_isLocal leads own
          obtain ⟨rest, rfl⟩ := own
          exact other ⟨dir.join ⟨rest⟩, "", false⟩ key ⟨refers, ⟨rest, given, rfl⟩, rfl⟩
  | @recorded node revised _ _ resource _ key own set _ ih =>
      obtain ⟨refers, ⟨rest, given, _⟩, _⟩ := own
      have leads : node.destination? = some (Path.scheme ++ rest) := by
        rw [Node.destination?, refers, Option.map_some, Node.attrOr, given, Option.getD_some]
      have refersStill : referenceKey? revised = some key := by
        rw [← refers, referenceKey?, referenceKey?, set.kind]
      have target : revised.destination? = some resource.target := by
        rw [Node.destination?, refersStill, Option.map_some, Node.attrOr,
          Node.attr?_of_set set.attrs, Option.getD_some]
        rfl
      rw [List.filterMap_cons, List.filterMap_cons, leads, target]
      exact .redirected ⟨rest, rfl⟩ ih

-----------------------------------------------------------------------------------------
-- Further claims
-----------------------------------------------------------------------------------------

/-- A manifest after any further claims. -/
inductive Manifest.Grown : Manifest → Manifest → Prop
  | same (m : Manifest) : Grown m m
  | claim {m later : Manifest} (source : Path) (essential : Bool)
      (grown : Grown (m.claim source essential).2 later)
      : Grown m later
  | claimAs {m later : Manifest} (source : Path) (base : String) (essential : Bool)
      (grown : Grown (m.claimAs source base essential).2 later)
      : Grown m later

theorem Manifest.Grown.trans {first second third : Manifest} (earlier : first.Grown second)
    (later : second.Grown third)
    : first.Grown third := by
  induction earlier with
  | same => exact later
  | claim source essential _ ih => exact .claim source essential (ih later)
  | claimAs source base essential _ ih => exact .claimAs source base essential (ih later)

theorem Manifest.grown_visit (m : Manifest) (dir : Path) (node : Node)
    : m.Grown (m.visit dir node).2 := by
  simp only [Manifest.visit]
  split
  next source _ => exact .claim source false (.same _)
  next => exact .same m

/-- The manifest of a document is made by claims. -/
theorem grown_extractResources (document : Node) (directory : String) (dir : Path)
    : Manifest.Grown { directory := directory } (extractResources document directory dir).1 :=
  Node.revise_keeps (fun m node grown => Manifest.Grown.trans grown (m.grown_visit dir node))
    document _ (.same _)

/-- Further claims keep the targets apart. -/
theorem Manifest.Apart.grown {m later : Manifest} (apart : m.Apart) (grown : m.Grown later)
    : later.Apart := by
  induction grown with
  | same => exact apart
  | claim source essential _ ih => exact ih (apart.claimAs source source.publishedName essential)
  | claimAs source base essential _ ih => exact ih (apart.claimAs source base essential)

-----------------------------------------------------------------------------------------
-- The references of documents
-----------------------------------------------------------------------------------------

theorem holds_extractResources (document : Node) (directory : String) (dir : Path)
    : (redirecting dir).Holds document.preorder (extractResources document directory dir).1.entries
        (extractResources document directory dir).2.preorder := by
  obtain ⟨found, added, held⟩ :=
    (guides_redirecting dir).revise document { directory := directory }
  rw [extractResources_eq, added]
  exact held

theorem wellFormed_extractResources {document : Node} (formed : document.WellFormed)
    (directory : String) (dir : Path)
    : (extractResources document directory dir).2.WellFormed := by
  rw [extractResources_eq]
  exact Node.WellFormed.revise (guides_redirecting dir).setsAttributes document _ formed

theorem kind_extractResources (document : Node) (directory : String) (dir : Path)
    : (extractResources document directory dir).2.kind = document.kind := by
  rw [extractResources_eq]
  exact Node.kind_revise (guides_redirecting dir).setsAttributes.keepsProse document _

/-- Nothing is found in a document that refers to no local file. -/
theorem extractResources_of_plain {document : Node}
    (plain
      : ∀ destination ∈ document.preorder.filterMap Node.destination?,
          ¬ Path.IsLocal destination)
    (directory : String) (dir : Path)
    : extractResources document directory dir = ({ directory := directory }, document) := by
  have idle : ∀ inner ∈ document.preorder, ∀ m, Manifest.visit dir m inner = (inner, m) := by
    intro inner member m
    cases found : localFile? dir inner with
    | none => rw [Manifest.visit, found]
    | some file =>
        obtain ⟨refers, rest, given, _⟩ := localFile?_eq_some_iff.mp found
        have leads : inner.destination? = some (Path.scheme ++ rest) := by
          rw [Node.destination?, refers, Option.map_some, Node.attrOr, given, Option.getD_some]
        exact absurd ⟨rest, rfl⟩ (plain _ (List.mem_filterMap.mpr ⟨inner, member, leads⟩))
  rw [extractResources_eq, Node.revise_of_idle document fun inner member => idle inner member _]

/-- Where the links and the images of a document lead, once its local references are redirected. -/
theorem redirected_extractResources {document : Node} (root : document.kind = .document)
    (formed : document.WellFormed) (directory : String) (dir : Path)
    : Redirected (destinations (Node.eventsAll document.children))
        ((extractResources document directory dir).1.entries.map (·.target))
        (destinations (Node.eventsAll (extractResources document directory dir).2.children)) := by
  have still := (kind_extractResources document directory dir).trans root
  have after := wellFormed_extractResources formed directory dir
  rw [← Node.events_of_document root, ← Node.events_of_document still,
    Node.destinations_events formed, Node.destinations_events after]
  exact redirected_of_holds (holds_extractResources document directory dir)

/-- The targets are names in the directory. -/
theorem targets_extractResources (document : Node) (directory : String) (dir : Path)
    : ∃ names : List String,
        (extractResources document directory dir).1.entries.map (·.target)
          = names.map (directory ++ "/" ++ ·)
        ∧ ∀ name ∈ names, IsName name := by
  have sound := sound_extractResources document directory dir
  refine ⟨(extractResources document directory dir).1.names.taken.reverse, ?_, ?_⟩
  · rw [sound.targets, directory_extractResources]
  · exact fun name member => sound.proper name (List.mem_reverse.mp member)

/-- Each reference to a local file is recorded in order and redirected to a target of its own, a
name in the resource directory, and so is what is replayed; nothing else changes, and there is
nothing more to redirect. Further claims keep the targets apart.
-/
theorem extractResources_redirects (markdown : String) {directory : String}
    (proper : IsName directory) (dir : Path)
    : let document := parse markdown
      let manifest := (extractResources document directory dir).1
      let linked := (extractResources document directory dir).2
      let targets := manifest.entries.map (·.target)
      (redirecting dir).Holds document.preorder manifest.entries linked.preorder
      ∧ (∃ names : List String,
          targets = names.map (directory ++ "/" ++ ·) ∧ ∀ name ∈ names, IsName name)
      ∧ (∀ later, manifest.Grown later → (later.entries.map (·.target)).Nodup)
      ∧ Redirected (destinations (Node.eventsAll document.children)) targets
          (destinations (Node.eventsAll linked.children))
      ∧ (∀ destination ∈ destinations (Node.eventsAll linked.children),
          ¬ Path.IsLocal destination)
      ∧ ∀ other origin, extractResources linked other origin = (⟨other, .empty, []⟩, linked) := by
  intro document manifest linked targets
  have root : document.kind = .document := kind_parse markdown
  have formed : document.WellFormed := wellFormed_parse markdown
  have led : Redirected (destinations (Node.eventsAll document.children)) targets
      (destinations (Node.eventsAll linked.children)) :=
    redirected_extractResources root formed directory dir
  obtain ⟨names, whole, named⟩ := targets_extractResources document directory dir
  have plain : ∀ destination ∈ destinations (Node.eventsAll linked.children),
      ¬ Path.IsLocal destination := by
    refine led.not_isLocal fun target member => ?_
    rw [show targets = names.map (directory ++ "/" ++ ·) from whole] at member
    obtain ⟨name, among, rfl⟩ := List.mem_map.mp member
    exact not_isLocal_target proper (named name among)
  refine ⟨holds_extractResources document directory dir, ⟨names, whole, named⟩,
    fun later grown => ?_, led, plain, extractResources_of_plain ?_⟩
  · exact ((sound_extractResources document directory dir).toApart.grown grown).nodup_targets
  · have still : linked.kind = .document :=
      (kind_extractResources document directory dir).trans root
    rw [← Node.destinations_events (wellFormed_extractResources formed directory dir),
      Node.events_of_document still]
    exact plain

/-- Two files of one name, one of them in an image inside a link to the other, have targets of
their own.
-/
theorem redirected_plots
    : IsName "doc"
      ∧ Redirected ["file://plot.png", "file://old/plot.png"] ["doc/plot.png", "doc/1_plot.png"]
          (destinations (Node.eventsAll
            (extractResources (parse "[![a](file://old/plot.png)](file://plot.png)\n") "doc"
              ⟨"."⟩).2.children)) := by
  have proper : IsName "doc" := by decide
  obtain ⟨_, _, _, led, _, _⟩ :=
    extractResources_redirects "[![a](file://old/plot.png)](file://plot.png)\n" proper ⟨"."⟩
  have references : destinations (Node.eventsAll
      (parse "[![a](file://old/plot.png)](file://plot.png)\n").children)
      = ["file://plot.png", "file://old/plot.png"] := by
    decide +kernel
  have targets : (extractResources (parse "[![a](file://old/plot.png)](file://plot.png)\n") "doc"
      ⟨"."⟩).1.entries.map (·.target) = ["doc/plot.png", "doc/1_plot.png"] := by
    decide +kernel
  rw [references, targets] at led
  exact ⟨proper, led⟩

end Document
end Publication
