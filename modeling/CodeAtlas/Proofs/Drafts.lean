import CodeAtlas.Proofs.Declarations

/-!
# The turn of a directory

Directories are built one at a time. At its turn a directory gets the next number for its entity,
unless its name is taken. Then its marker and its modules are entered, and the directories inside
are attached; in the end the directory is kept, with its files, or removed.

## During the turn

`Draft.InTurn` says what holds all the while. The entities from before are as they were, and the
namespace is in order up to the entity of the directory, which is not finished. The files so far are
those of its new components, each with its place (`Namespace.Placed`). What is attached to the
entity are its modules and what was found under the names of directories inside; the names that were
looked for are a parameter of `InTurn`.

The invariant is shown of the draft after the marker (`inTurn_markerStep`), and then kept by each
module (`inTurn_moduleStep`) and by each directory inside (`InTurn.addSubdirectory`). A module is
the longest case, since its entity is unfinished as well until it is known whether the module
declares something: it is kept (`InTurn.keep`) or removed again (`InTurn.drop`).

## The end of the turn

At the end of the turn everything is finished (`Namespace.TurnEnd`). This says what is new, where it
stands and what is attached to the entity of the directory, in terms of the namespaces before and
after the turn alone, so that later modules need not know about drafts.
-/

namespace CodeAtlas

namespace Namespace

variable {project : Project} {directory : Directory} {ns ns' : Namespace} {owner : Id}
  {f : SourceFile}

/-- The place of a source file: it is the marker of a directory, and the component it belongs to is
the entity of the directory, or it is a module, and the component is attached to that entity. What
the component declares was read in it. -/
inductive Placed (project : Project) (directory : Directory) (owner : Id) (ns : Namespace) :
    SourceFile → Prop
  | marker {e : Entity} (howner : ns.get? owner = some e) (hmarker : e.body.isDirectory = true)
      (hreads : ns.Reads project directory ⟨directory.path ++ [markerName], owner⟩) :
      Placed project directory owner ns ⟨directory.path ++ [markerName], owner⟩
  | module {file : String} {id : Id} {e : Entity} (hfile : file ≠ markerName)
      (hid : ns.get? id = some e) (hkind : e.body.kind = .component)
      (hmodule : e.body.isDirectory = false)
      (hname : e.qualName = .ofPath project.name directory.path (some file))
      (hattached : ns.Holds owner .components id)
      (hreads : ns.Reads project directory ⟨directory.path ++ [file], id⟩) :
      Placed project directory owner ns ⟨directory.path ++ [file], id⟩

/-- A source file keeps its place when entities are added. -/
theorem Widens.placed (h : ns.Widens ns') (hf : ns.Placed project directory owner f) :
    ns'.Placed project directory owner f := by
  cases hf with
  | marker howner hmarker hreads =>
    obtain ⟨e', he', hwider⟩ := h _ _ howner
    exact .marker he' (hwider.isDirectory.trans hmarker) (h.reads hreads)
  | module hfile hid hkind hmodule hname hattached hreads =>
    obtain ⟨e', he', hwider⟩ := h _ _ hid
    exact .module hfile he' (hwider.kind.trans hkind) (hwider.isDirectory.trans hmodule)
      (hwider.qualName.trans hname) (h.holds hattached) (h.reads hreads)

/-- What the component of a source file declares was read in the file. -/
theorem Placed.reads (h : ns.Placed project directory owner f) : ns.Reads project directory f := by
  cases h with
  | marker _ _ hreads => exact hreads
  | module _ _ _ _ _ _ hreads => exact hreads

end Namespace

theorem Listing.ofDirectory_body (l : Listing) : l.body.OfDirectory := by
  unfold Listing.body
  split
  · exact .inr rfl
  · exact .inl rfl

namespace Draft

variable {project : Project} {directory : Directory} {before created declared : Namespace}
  {names : List String} {draft draft' : Draft} {id : Id} {file : String} {bytes : ByteArray}

/-- What holds of a draft while a directory is built, after `before`. Its entity has the next
number, and `names` are those of the directories inside that were attached so far, where they are
known. -/
structure InTurn (project : Project) (directory : Directory) (before : Namespace)
    (names : List String) (draft : Draft) : Prop where
  extended : before.Extended before.nextId draft.ns
  orderly : draft.ns.Orderly [before.nextId]
  entity : ∃ e, draft.ns.get? before.nextId = some e ∧
    Entity.Wider ⟨before.nextId, .ofPath project.name directory.path none,
      (directory.listing project.filter).body⟩ e
  placed : ∀ f ∈ draft.sources, draft.ns.Placed project directory before.nextId f
  marked : (directory.listing project.filter).marker.isSome →
    ∃ f ∈ draft.sources, f.component = before.nextId
  filed : ∀ i kind, before.nextId < i → kind = .package ∨ kind = .component →
    draft.ns.kind? i = some kind → ∃ f ∈ draft.sources, f.component = i
  children : draft.hasChildren = true ↔ draft.ns.HasChild before.nextId
  attached : ∀ s i, s = .packages ∨ s = .components →
    (draft.ns.Holds before.nextId s i ↔
      (s = .components ∧ before.nextId < i ∧ ∃ f ∈ draft.sources, f.component = i) ∨
        ∃ name ∈ names,
          draft.ns.lookup (.ofPath project.name (directory.path ++ [name]) none) = some i ∧
            ∃ kind, draft.ns.kind? i = some kind ∧ s = .attached kind)

namespace InTurn

/-- The number of the directory has been given. -/
theorem lt_nextId (h : draft.InTurn project directory before names) :
    before.nextId < draft.ns.nextId := by
  obtain ⟨e, he, -⟩ := h.entity
  exact h.orderly.bounded _ (by rw [Namespace.kind?, he]; rfl)

theorem ofDirectory (h : draft.InTurn project directory before names) :
    draft.ns.OfDirectory before.nextId := by
  obtain ⟨e, he, hwider⟩ := h.entity
  refine ⟨e, he, ?_⟩
  rw [Body.OfDirectory, hwider.kind, hwider.isDirectory]
  exact Listing.ofDirectory_body _

/-- What is found under the name of a directory inside is not the directory itself. -/
theorem ne_of_lookup (h : draft.InTurn project directory before names) {name : String} {i : Id}
    (hi : draft.ns.lookup (.ofPath project.name (directory.path ++ [name]) none) = some i) :
    i ≠ before.nextId := by
  rintro rfl
  obtain ⟨e, he, hwider⟩ := h.entity
  obtain ⟨e', he', hname⟩ := h.orderly.exists_of_lookup _ _ hi
  rw [he] at he'
  cases he'
  rw [hwider.qualName, QualName.ofPath_directory] at hname
  exact QualName.child_ne _ _ hname.symm

end InTurn

/-! ### The marker -/

/-- A directory starts with the files and declarations of its marker, if it has one. -/
theorem inTurn_start {sources : List SourceFile} (h : before.Orderly [])
    (hcreate : before.create (.ofPath project.name directory.path none)
      (directory.listing project.filter).body = some (before.nextId, created))
    (hdeclares : created.Declares before.nextId declared)
    (hsources : sources = if (directory.listing project.filter).marker.isSome then
      [⟨directory.path ++ [markerName], before.nextId⟩] else [])
    (hreads : ∀ f ∈ sources, declared.Reads project directory f) :
    InTurn project directory before [] ⟨declared, sources, false⟩ := by
  have htidy := h.toTidy.create hcreate
  have hextended := hdeclares.extended htidy
  have hbody := Listing.container_body (directory.listing project.filter)
  obtain ⟨e, he, hwider⟩ := hextended.widens before.nextId _
    (by rw [Namespace.get?_create hcreate, if_pos rfl])
  -- nothing is attached to the directory, which is new
  have hnone : ∀ s i, s = .packages ∨ s = .components → ¬ declared.Holds before.nextId s i := by
    intro s i hs hi
    rw [hdeclares.holds_iff htidy hs] at hi
    exact Namespace.not_holds_create h.bounded hbody.shelf_eq hcreate hi
  refine ⟨(Namespace.extended_create h.toTidy (Nat.le_refl _) hcreate).trans hextended,
    (h.create hbody hcreate).declares hdeclares, ⟨e, he, hwider⟩, fun f hf ↦ ?_, fun hmarker ↦ ?_,
    fun i kind hi hkind hlive ↦ ?_, ?_, fun s i hs ↦ ?_⟩
  · have hread := hreads f hf
    dsimp only at hf
    rw [hsources] at hf
    split at hf
    · next hmarker =>
      cases List.mem_singleton.1 hf
      refine .marker he (hwider.isDirectory.trans ?_) hread
      rw [Listing.body, if_pos hmarker]
      rfl
    · cases hf
  · rw [if_pos hmarker] at hsources
    exact ⟨_, by rw [hsources]; exact List.mem_singleton_self _, rfl⟩
  · have hcreated := hdeclares.kind?_eq hkind hlive
    rw [Namespace.kind?_create hcreate, if_neg (Nat.ne_of_gt hi)] at hcreated
    have hlt := h.bounded i (by rw [hcreated]; rfl)
    exact absurd hlt (Nat.not_lt.2 (Nat.le_of_lt hi))
  · refine iff_of_false Bool.false_ne_true ?_
    rintro ⟨i, hi | hi⟩
    · exact hnone _ i (.inl rfl) hi
    · exact hnone _ i (.inr rfl) hi
  · refine iff_of_false (hnone s i hs) ?_
    rintro (⟨-, hlt, f, hf, rfl⟩ | ⟨name, hname, -⟩)
    · dsimp only at hf
      rw [hsources] at hf
      split at hf
      · cases List.mem_singleton.1 hf
        exact Nat.lt_irrefl _ hlt
      · cases hf
    · cases hname

/-- The invariant holds after the marker of a directory was entered. -/
theorem inTurn_markerStep (h : before.Orderly [])
    (hcreate : before.create (.ofPath project.name directory.path none)
      (directory.listing project.filter).body = some (before.nextId, created))
    (hstep : MarkerStep project directory before.nextId created
      (directory.listing project.filter).marker draft) :
    draft.InTurn project directory before [] := by
  generalize hmarker : (directory.listing project.filter).marker = marker at hstep
  cases hstep with
  | none => exact inTurn_start h hcreate .refl (by rw [hmarker]; rfl) fun f hf ↦ nomatch hf
  | @some bytes statements hparse =>
    have hentity := Namespace.hasEntity_create hcreate
    rw [Listing.body, hmarker] at hentity
    have hbody := Listing.container_body (directory.listing project.filter)
    refine inTurn_start h hcreate ?_ (by rw [hmarker]; rfl) fun f hf ↦ ?_
    · exact Namespace.declares_declareAll (h.toTidy.create hcreate) (Nat.le_refl _) hentity _
    · cases List.mem_singleton.1 hf
      refine ⟨markerName, bytes, statements, rfl, Directory.mem_of_marker hmarker, hparse, ?_⟩
      exact Namespace.declaresFirst_declareAll (h.create hbody hcreate) hentity
        (fun s i ↦ Namespace.not_holds_create h.bounded hbody.shelf_eq hcreate) _

/-! ### Modules -/

section Module

variable (h : draft.InTurn project directory before [])
  (hcreate : draft.ns.create (.ofPath project.name directory.path (some file)) (.component {}) =
    some (id, created))
  (hdeclares : created.Declares id declared)

include h hcreate

/-- A module gets a higher number than its directory. -/
theorem InTurn.lt_module : before.nextId < id := by
  rw [(Namespace.create_eq_some_iff.1 hcreate).2.1]
  exact h.lt_nextId

include hdeclares

/-- Entering a module leaves the entities from before the turn as they are. -/
theorem InTurn.extended_module : draft.ns.Extended before.nextId declared := by
  have hcreated := Namespace.extended_create h.orderly.toTidy (Nat.le_of_lt h.lt_nextId) hcreate
  exact hcreated.trans
    ((hdeclares.extended hcreated.tidy).mono (Nat.le_of_lt (h.lt_module hcreate)))

/-- A new module with its declarations leaves what is attached as it is. -/
theorem InTurn.holds_module {o i : Id} {s : Shelf} (hs : s = .packages ∨ s = .components) :
    declared.Holds o s i ↔ draft.ns.Holds o s i := by
  rw [hdeclares.holds_iff (h.orderly.toTidy.create hcreate) hs]
  exact Namespace.holds_create h.orderly.bounded (Body.Container.component false).shelf_eq hcreate

omit h in
/-- A new module is the only new container. -/
theorem kind?_module {i : Id} {kind : EntityKind}
    (hkind : kind = .package ∨ kind = .component) (hi : declared.kind? i = some kind)
    (hne : i ≠ id) : draft.ns.kind? i = some kind := by
  have hcreated := hdeclares.kind?_eq hkind hi
  rwa [Namespace.kind?_create hcreate, if_neg hne] at hcreated

/-- While a module is entered, it is unfinished and so is its directory. -/
theorem InTurn.orderly_module : declared.Orderly [id, before.nextId] :=
  (h.orderly.create (.component false) hcreate).declares hdeclares

/-- A module that declares nothing is removed again. -/
theorem InTurn.drop (hempty : declared.declares id = false) :
    InTurn project directory before [] ⟨declared.prune id, draft.sources, draft.hasChildren⟩ := by
  have hlt := h.lt_module hcreate
  have hextended := h.extended_module hcreate hdeclares
  have hfresh : draft.ns.kind? id = none := by
    rw [(Namespace.create_eq_some_iff.1 hcreate).2.1]
    exact h.orderly.bounded.kind?_nextId
  have hpruned := hextended.prune (Nat.le_of_lt hlt) hfresh
  have hmodule : declared.kind? id = some .component :=
    (hdeclares.extended (h.orderly.toTidy.create hcreate)).kind?
      (Namespace.hasEntity_create hcreate).kind?
  have hholds : ∀ s i, s = .packages ∨ s = .components →
      ((declared.prune id).Holds before.nextId s i ↔ draft.ns.Holds before.nextId s i) := by
    intro s i hs
    rw [Namespace.holds_prune, h.holds_module hcreate hdeclares hs]
    exact and_iff_right (Nat.ne_of_lt hlt)
  obtain ⟨e, he, hwider⟩ := h.entity
  obtain ⟨e', he', hwider'⟩ := hpruned.widens _ e he
  refine ⟨h.extended.trans hpruned, ?_, ⟨e', he', hwider.trans hwider'⟩,
    fun f hf ↦ hpruned.widens.placed (h.placed f hf), h.marked, fun i kind hi hkind hlive ↦ ?_, ?_,
    fun s i hs ↦ ?_⟩
  · refine (h.orderly_module hcreate hdeclares).prune ?_ (.inr hmodule) hempty
    exact fun hid ↦ Nat.ne_of_gt hlt (List.mem_singleton.1 hid)
  · rw [Namespace.kind?_prune] at hlive
    split at hlive
    · cases hlive
    · next hne => exact h.filed i kind hi hkind (kind?_module hcreate hdeclares hkind hlive hne)
  · rw [h.children]
    exact exists_congr fun i ↦ or_congr (hholds _ i (.inl rfl)).symm (hholds _ i (.inr rfl)).symm
  · rw [hholds s i hs, h.attached s i hs]
    exact or_congr_right (iff_of_false (fun ⟨_, hname, _⟩ ↦ nomatch hname)
      fun ⟨_, hname, _⟩ ↦ nomatch hname)

/-- A module that declares something is kept. -/
theorem InTurn.keep (hfile : file ≠ markerName) (hfilled : declared.declares id = true)
    (hreads : declared.Reads project directory ⟨directory.path ++ [file], id⟩) :
    InTurn project directory before []
      ⟨declared.attach before.nextId id .component,
        draft.sources ++ [⟨directory.path ++ [file], id⟩], true⟩ := by
  have hlt := h.lt_module hcreate
  have hextended := h.extended_module hcreate hdeclares
  have htidy := h.orderly.toTidy.create hcreate
  obtain ⟨m, hm, hmodule⟩ := (hdeclares.extended htidy).widens id _
    (by rw [Namespace.get?_create hcreate, if_pos rfl])
  have hkind : declared.kind? id = some .component := by
    rw [Namespace.kind?, hm]
    exact congrArg some hmodule.kind
  have howner := hextended.widens.ofDirectory h.ofDirectory
  have hattach := Namespace.extended_attach hextended.tidy (Nat.le_refl before.nextId) id .component
  have hwidens := hextended.widens.trans hattach.widens
  have hholds : ∀ s i, s = .packages ∨ s = .components →
      ((declared.attach before.nextId id .component).Holds before.nextId s i ↔
        draft.ns.Holds before.nextId s i ∨ s = .components ∧ i = id) := by
    intro s i hs
    rw [Namespace.holds_attach howner.kind?, h.holds_module hcreate hdeclares hs]
    exact or_congr_right (and_iff_right rfl)
  obtain ⟨e, he, hwider⟩ := h.entity
  obtain ⟨e', he', hwider'⟩ := hwidens _ e he
  refine ⟨h.extended.trans (hextended.trans hattach), ?_, ⟨e', he', hwider.trans hwider'⟩,
    fun f hf ↦ ?_, fun hmarker ↦ ?_, fun i kind hi hkind' hlive ↦ ?_, ?_, fun s i hs ↦ ?_⟩
  · refine Namespace.Orderly.attach ?_ howner hkind
      fun hid ↦ Nat.ne_of_gt hlt (List.mem_singleton.1 hid)
    exact (h.orderly_module hcreate hdeclares).finish (.inr (.inr (.inl hfilled)))
  · rcases List.mem_append.1 hf with hf | hf
    · exact hwidens.placed (h.placed f hf)
    · cases List.mem_singleton.1 hf
      obtain ⟨m', hm', hmodule'⟩ := hattach.widens id m hm
      refine .module hfile hm' (hmodule'.kind.trans hmodule.kind)
        (hmodule'.isDirectory.trans hmodule.isDirectory)
        (hmodule'.qualName.trans hmodule.qualName) ?_ (hattach.widens.reads hreads)
      exact (hholds _ _ (.inr rfl)).2 (.inr ⟨rfl, rfl⟩)
  · obtain ⟨f, hf, hcomponent⟩ := h.marked hmarker
    exact ⟨f, List.mem_append_left _ hf, hcomponent⟩
  · by_cases hne : i = id
    · exact ⟨_, List.mem_append_right _ (List.mem_singleton_self _), hne.symm⟩
    · dsimp only at hlive
      rw [Namespace.attach, Namespace.kind?_modify (Body.kind_mapChildren · _)] at hlive
      obtain ⟨f, hf, hcomponent⟩ :=
        h.filed i kind hi hkind' (kind?_module hcreate hdeclares hkind' hlive hne)
      exact ⟨f, List.mem_append_left _ hf, hcomponent⟩
  · exact iff_of_true rfl ⟨id, .inr ((hholds _ _ (.inr rfl)).2 (.inr ⟨rfl, rfl⟩))⟩
  · rw [hholds s i hs, h.attached s i hs]
    constructor
    · rintro ((⟨hs, hi, f, hf, hcomponent⟩ | ⟨_, hname, -⟩) | ⟨hs, rfl⟩)
      · exact .inl ⟨hs, hi, f, List.mem_append_left _ hf, hcomponent⟩
      · cases hname
      · exact .inl ⟨hs, hlt, _, List.mem_append_right _ (List.mem_singleton_self _), rfl⟩
    · rintro (⟨hs, hi, f, hf, hcomponent⟩ | ⟨_, hname, -⟩)
      · rcases List.mem_append.1 hf with hf | hf
        · exact .inl (.inl ⟨hs, hi, f, hf, hcomponent⟩)
        · cases List.mem_singleton.1 hf
          exact .inr ⟨hs, hcomponent.symm⟩
      · cases hname

end Module

/-- The invariant is kept by a module, whether it is skipped, kept or dropped. -/
theorem inTurn_moduleStep (h : draft.InTurn project directory before []) (hfile : file ≠ markerName)
    (hmem : .file file bytes ∈ directory.entries)
    (hstep : ModuleStep project directory before.nextId file bytes draft draft') :
    draft'.InTurn project directory before [] := by
  have hdeclares : ∀ {id : Id} {created : Namespace}, draft.ns.create
      (.ofPath project.name directory.path (some file)) (.component {}) = some (id, created) →
        ∀ declarations, created.Declares id (created.declareAll id declarations) :=
    fun hcreate ↦ Namespace.declares_declareAll (h.orderly.toTidy.create hcreate) (Nat.le_refl _)
      (Namespace.hasEntity_create hcreate)
  cases hstep with
  | skipped => exact h
  | @kept id created _ statements hcreate hparse hdeclared hfilled =>
    refine h.keep hcreate (hdeclared ▸ hdeclares hcreate _) hfile hfilled
      ⟨file, bytes, statements, rfl, hmem, hparse, ?_⟩
    rw [← hdeclared]
    exact Namespace.declaresFirst_declareAll (h.orderly.create (.component false) hcreate)
      (Namespace.hasEntity_create hcreate) (fun s i ↦ Namespace.not_holds_create h.orderly.bounded
        (Body.Container.component false).shelf_eq hcreate) _
  | dropped hcreate hdeclared hempty =>
    exact h.drop hcreate (hdeclared ▸ hdeclares hcreate _) hempty

/-! ### Directories inside -/

/-- The invariant is kept by a directory inside, whose name is known from then on. -/
theorem InTurn.addSubdirectory (h : draft.InTurn project directory before names) (name : String) :
    (Draft.addSubdirectory project directory before.nextId draft name).InTurn project directory
      before (names ++ [name]) := by
  unfold Draft.addSubdirectory
  dsimp only
  cases hfind : draft.ns.find? (.ofPath project.name (directory.path ++ [name]) none) with
  | none =>
    refine ⟨h.extended, h.orderly, h.entity, h.placed, h.marked, h.filed, h.children,
      fun s i hs ↦ ?_⟩
    have hunknown : ∀ i,
        draft.ns.lookup (.ofPath project.name (directory.path ++ [name]) none) ≠ some i := by
      intro i hi
      obtain ⟨e, he, -⟩ := h.orderly.exists_of_lookup _ _ hi
      rw [Namespace.find?, hi, Option.bind_some, he] at hfind
      cases hfind
    rw [h.attached s i hs]
    simp [hunknown, or_and_right, exists_or]
  | some e =>
    obtain ⟨i₀, hlookup, hget⟩ := Option.bind_eq_some_iff.1 hfind
    obtain rfl : e.id = i₀ := h.orderly.id_eq i₀ e hget
    have hchild : draft.ns.kind? e.id = some e.kind := by
      rw [Namespace.kind?, hget]
      rfl
    have hattach :=
      Namespace.extended_attach h.orderly.toTidy (Nat.le_refl before.nextId) e.id e.kind
    have hkind : ∀ i, (draft.ns.attach before.nextId e.id e.kind).kind? i = draft.ns.kind? i :=
      fun i ↦ Namespace.kind?_modify (Body.kind_mapChildren · _)
    have hlookups : ∀ q, (draft.ns.attach before.nextId e.id e.kind).lookup q = draft.ns.lookup q :=
      fun q ↦ Namespace.lookup_modify
    have hholds : ∀ s i, (draft.ns.attach before.nextId e.id e.kind).Holds before.nextId s i ↔
        draft.ns.Holds before.nextId s i ∨ s = .attached e.kind ∧ i = e.id := by
      intro s i
      rw [Namespace.holds_attach h.ofDirectory.kind?]
      exact or_congr_right (and_iff_right rfl)
    obtain ⟨o, ho, hwider⟩ := h.entity
    obtain ⟨o', ho', hwider'⟩ := hattach.widens _ o ho
    refine ⟨h.extended.trans hattach, ?_, ⟨o', ho', hwider.trans hwider'⟩,
      fun f hf ↦ hattach.widens.placed (h.placed f hf), h.marked, fun i kind hi hkind' hlive ↦ ?_,
      ?_, fun s i hs ↦ ?_⟩
    · exact h.orderly.attach h.ofDirectory hchild
        fun hmem ↦ h.ne_of_lookup hlookup (List.mem_singleton.1 hmem)
    · exact h.filed i kind hi hkind' ((hkind i).symm.trans hlive)
    · have hnew := (hholds (.attached e.kind) e.id).2 (.inr ⟨rfl, rfl⟩)
      exact iff_of_true rfl (hnew.hasChild (Shelf.attached_eq _))
    · have hlast : (s = .attached e.kind ∧ i = e.id) ↔
          draft.ns.lookup (.ofPath project.name (directory.path ++ [name]) none) = some i ∧
            ∃ kind, draft.ns.kind? i = some kind ∧ s = .attached kind := by
        rw [hlookup]
        constructor
        · rintro ⟨rfl, rfl⟩
          exact ⟨rfl, e.kind, hchild, rfl⟩
        · rintro ⟨hi, kind, hkind, rfl⟩
          cases hi
          rw [hchild] at hkind
          cases hkind
          exact ⟨rfl, rfl⟩
      rw [hholds, h.attached s i hs, hlast, or_assoc]
      simp only [hkind, hlookups, List.mem_append, List.mem_singleton, or_and_right, exists_or,
        exists_eq_left]

/-- The invariant is kept by all directories inside. -/
theorem InTurn.addSubdirectories (h : draft.InTurn project directory before names)
    (further : List String) :
    (further.foldl (Draft.addSubdirectory project directory before.nextId) draft).InTurn project
      directory before (names ++ further) := by
  induction further generalizing draft names with
  | nil =>
    rw [List.append_nil]
    exact h
  | cons name rest ih =>
    have hrest := ih (h.addSubdirectory name)
    rwa [List.append_assoc, List.singleton_append] at hrest

/-! ### The end of the turn -/

/-- What has the name of a directory inside is attached. -/
theorem InTurn.inside (h : draft.InTurn project directory before names) {name : String} {i : Id}
    (hname : name ∈ names)
    (hi : draft.ns.lookup (.ofPath project.name (directory.path ++ [name]) none) = some i) :
    ∃ kind, draft.ns.kind? i = some kind ∧ draft.ns.Holds before.nextId (.attached kind) i := by
  obtain ⟨e, he, -⟩ := h.orderly.exists_of_lookup _ i hi
  have hkind : draft.ns.kind? i = some e.kind := by
    rw [Namespace.kind?, he]
    rfl
  refine ⟨e.kind, hkind, (h.attached _ i (Shelf.attached_eq _)).2 (.inr ?_)⟩
  exact ⟨name, hname, hi, e.kind, hkind, rfl⟩

/-- A module is no directory. -/
theorem InTurn.eq_of_ofDirectory (h : draft.InTurn project directory before names) {i : Id}
    (hi : draft.ns.OfDirectory i) (hlt : before.nextId < i) : False := by
  have hkind : ∃ kind, (kind = .package ∨ kind = .component) ∧ draft.ns.kind? i = some kind :=
    hi.kind?.elim (fun hi ↦ ⟨_, .inl rfl, hi⟩) fun hi ↦ ⟨_, .inr rfl, hi⟩
  obtain ⟨kind, hkind, hlive⟩ := hkind
  obtain ⟨f, hf, rfl⟩ := h.filed i kind hlt hkind hlive
  cases h.placed f hf with
  | marker => exact Nat.lt_irrefl _ hlt
  | module _ hid hkind hmodule =>
    obtain ⟨e, he, hdirectory⟩ := hi
    rw [hid] at he
    cases he
    rcases hdirectory with hpackage | hdirectory
    · rw [hkind] at hpackage
      cases hpackage
    · rw [hmodule] at hdirectory
      cases hdirectory

end Draft

namespace Namespace

variable {ns ns' ns'' : Namespace}

/-- The second namespace has the entities of the first as they were, and others with higher
numbers. -/
structure Leaves (ns ns' : Namespace) : Prop where
  nextId : ns.nextId ≤ ns'.nextId
  below : ∀ i < ns.nextId, ns'.get? i = ns.get? i

namespace Leaves

theorem refl (ns : Namespace) : ns.Leaves ns :=
  ⟨Nat.le_refl _, fun _ _ ↦ rfl⟩

theorem trans (h : ns.Leaves ns') (h' : ns'.Leaves ns'') : ns.Leaves ns'' where
  nextId := Nat.le_trans h.nextId h'.nextId
  below i hi := (h'.below i (Nat.lt_of_lt_of_le hi h.nextId)).trans (h.below i hi)

/-- A namespace that has the entities of another as they were has all that they hold. -/
theorem widens (h : ns.Leaves ns') (hb : ns.Bounded) : ns.Widens ns' := by
  intro i e he
  have hlt := hb i (by rw [kind?, he]; rfl)
  exact ⟨e, (h.below i hlt).trans he, .refl e⟩

end Leaves

/-- What a directory leaves behind that has got an entity: its files, whatever their names, are
those of the new components; the entity has the name of the directory, if it was kept, and no other
new entity is that of a directory; and attached to it are new modules and what has the name of a
directory inside, which is all attached. -/
structure TurnEnd (project : Project) (directory : Directory) (before after : Namespace) : Prop
    extends before.Leaves after where
  next : before.nextId < after.nextId
  orderly : after.Orderly []
  files : ∃ files, after.sources = before.sources ++ files ∧
    (∀ f ∈ files, after.Placed project directory before.nextId f) ∧
    ∀ i, before.nextId ≤ i → after.kind? i = some .component → ∃ f ∈ files, f.component = i
  entity : ∀ e, after.get? before.nextId = some e →
    e.qualName = .ofPath project.name directory.path none ∧ e.body.OfDirectory
  others : ∀ i, before.nextId < i → ¬ after.OfDirectory i
  inside : ∀ name ∈ (directory.listing project.filter).subdirectories, ∀ i,
    after.lookup (.ofPath project.name (directory.path ++ [name]) none) = some i →
      ∃ kind, after.kind? i = some kind ∧ after.Holds before.nextId (.attached kind) i
  attached : ∀ s i, s = .packages ∨ s = .components → after.Holds before.nextId s i →
    (before.nextId < i ∧ after.kind? i = some .component) ∨
      ∃ name ∈ (directory.listing project.filter).subdirectories,
        after.lookup (.ofPath project.name (directory.path ++ [name]) none) = some i

end Namespace

namespace Draft

variable {project : Project} {directory : Directory} {before : Namespace} {draft : Draft}

section Finish

variable (h : draft.InTurn project directory before
  (directory.listing project.filter).subdirectories) (root : Option Id)

include h

/-- The turn of a directory that declares something or has something attached: it is kept. -/
theorem InTurn.turnEnd_keep (hfilled : draft.hasChildren || draft.ns.declares before.nextId) :
    Namespace.TurnEnd project directory before
      { draft.ns with root, sources := draft.ns.sources ++ draft.sources } := by
  have hwidens : draft.ns.Widens
      { draft.ns with root, sources := draft.ns.sources ++ draft.sources } :=
    fun i e he ↦ ⟨e, he, .refl e⟩
  obtain ⟨e, he, hwider⟩ := h.entity
  refine ⟨⟨h.extended.nextId, h.extended.below⟩, h.lt_nextId, ?_, ⟨draft.sources, ?_, ?_, ?_⟩, ?_,
    fun i hi hdirectory ↦ h.eq_of_ofDirectory hdirectory hi, fun name hname i hi ↦ ?_,
    fun s i hs hi ↦ ?_⟩
  · refine Namespace.Orderly.note (h.orderly.finish ?_) root _
    rcases Bool.or_eq_true_iff.1 hfilled with hchildren | hdeclares
    · exact .inr (.inr (.inr (h.children.1 hchildren)))
    · exact .inr (.inr (.inl hdeclares))
  · exact congrArg (· ++ draft.sources) h.extended.sources
  · exact fun f hf ↦ hwidens.placed (h.placed f hf)
  · intro i hi hkind
    rcases Nat.eq_or_lt_of_le hi with rfl | hlt
    · refine h.marked ?_
      have hbody : (directory.listing project.filter).body.kind = .component := by
        have hkind : (draft.ns.get? before.nextId).map Entity.kind = some .component := hkind
        rw [he] at hkind
        exact hwider.kind.symm.trans (Option.some.inj hkind)
      unfold Listing.body at hbody
      split at hbody
      · assumption
      · cases hbody
    · exact h.filed i _ hlt (.inr rfl) hkind
  · intro e' he'
    have he' : draft.ns.get? before.nextId = some e' := he'
    rw [he] at he'
    cases he'
    refine ⟨hwider.qualName, ?_⟩
    rw [Body.OfDirectory, hwider.kind, hwider.isDirectory]
    exact Listing.ofDirectory_body _
  · exact h.inside hname hi
  · rcases (h.attached s i hs).1 hi with ⟨-, hlt, f, hf, rfl⟩ | ⟨name, hname, hlookup, -⟩
    · cases h.placed f hf with
      | marker => exact absurd hlt (Nat.lt_irrefl _)
      | module _ hid hkind =>
        refine .inl ⟨hlt, ?_⟩
        show (draft.ns.get? _).map Entity.kind = _
        rw [hid]
        exact congrArg some hkind
    · exact .inr ⟨name, hname, hlookup⟩

/-- The turn of a directory without modules, in which no name of a directory inside is known: it is
removed. -/
theorem InTurn.turnEnd_drop
    (hempty : (draft.hasChildren || draft.ns.declares before.nextId) = false) :
    Namespace.TurnEnd project directory before { draft.ns.prune before.nextId with root } := by
  obtain ⟨hchildren, hdeclares⟩ := Bool.or_eq_false_iff.1 hempty
  have hnone : ¬ draft.ns.HasChild before.nextId := by
    rw [← h.children, hchildren]
    exact Bool.false_ne_true
  -- a component with a file would be attached
  have hmodule : ∀ i kind, before.nextId < i → kind = .package ∨ kind = .component →
      draft.ns.kind? i ≠ some kind := by
    intro i kind hlt hkind hlive
    obtain ⟨f, hf, rfl⟩ := h.filed i kind hlt hkind hlive
    cases h.placed f hf with
    | marker => exact Nat.lt_irrefl _ hlt
    | module _ _ _ _ _ hattached => exact hnone ⟨_, .inr hattached⟩
  have hcontainer : ∀ i kind, before.nextId ≤ i → kind = .package ∨ kind = .component →
      (draft.ns.prune before.nextId).kind? i ≠ some kind := by
    intro i kind hi hkind hlive
    rw [Namespace.kind?_prune] at hlive
    split at hlive
    · cases hlive
    · next hne => exact hmodule i kind (Nat.lt_of_le_of_ne hi (Ne.symm hne)) hkind hlive
  refine ⟨⟨?_, fun i hi ↦ ?_⟩, ?_, ?_, ⟨[], ?_, fun f hf ↦ ?_, fun i hi hkind ↦ ?_⟩, fun e he ↦ ?_,
    fun i hi hdirectory ↦ ?_, fun name hname i hi ↦ ?_, fun s i hs hi ↦ ?_⟩
  · exact Nat.le_trans h.extended.nextId (Nat.le_of_eq Namespace.nextId_prune.symm)
  · show (draft.ns.prune before.nextId).get? i = _
    rw [Namespace.get?_prune, if_neg (Nat.ne_of_lt hi), h.extended.below i hi]
  · exact Nat.lt_of_lt_of_eq h.lt_nextId Namespace.nextId_prune.symm
  · have hpruned := h.orderly.prune List.not_mem_nil h.ofDirectory.kind? hdeclares
    exact hpruned.note root _
  · rw [List.append_nil]
    exact Namespace.sources_prune.trans h.extended.sources
  · cases hf
  · exact absurd hkind (hcontainer i _ hi (.inr rfl))
  · have he : (draft.ns.prune before.nextId).get? before.nextId = some e := he
    rw [Namespace.get?_prune, if_pos rfl] at he
    cases he
  · have hdirectory : (draft.ns.prune before.nextId).OfDirectory i := hdirectory
    rcases hdirectory.kind? with hkind | hkind
    · exact hcontainer i _ (Nat.le_of_lt hi) (.inl rfl) hkind
    · exact hcontainer i _ (Nat.le_of_lt hi) (.inr rfl) hkind
  · have hi : (draft.ns.prune before.nextId).lookup _ = some i := hi
    rw [Namespace.lookup_prune h.orderly.toConsistent] at hi
    split at hi
    · cases hi
    · obtain ⟨kind, -, hholds⟩ := h.inside hname hi
      exact absurd (hholds.hasChild (Shelf.attached_eq kind)) hnone
  · have hi : (draft.ns.prune before.nextId).Holds before.nextId s i := hi
    exact absurd rfl (Namespace.holds_prune.1 hi).1

/-- The turn of a directory that gets an entity ends with everything finished, whether it is kept or
removed. -/
theorem InTurn.turnEnd :
    Namespace.TurnEnd project directory before { (draft.finish before.nextId).1 with root } := by
  unfold finish
  split
  · next hfilled => exact h.turnEnd_keep root hfilled
  · next hempty => exact h.turnEnd_drop root (Bool.eq_false_iff.2 hempty)

end Finish

end Draft

end CodeAtlas
