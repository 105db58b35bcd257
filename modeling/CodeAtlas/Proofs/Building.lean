import CodeAtlas.Proofs.BuildSteps
import CodeAtlas.Proofs.Folds

/-!
# Building, step by step

The functions that build are opened here once, to see that they make the steps that `BuildStep`
lists and no others (`builds_build`). What every step keeps then holds of what is built
(`build_induction`), and for what is said of one body at a time it is enough to look at new bodies
and at changes to one (`forall_body_of_build`). Later modules use these and do not open the
functions again.

## One directory

While a directory is built there is a draft: a namespace, and the files that are to be noted. Its
marker file is entered into the entity of the directory itself (`Draft.MarkerStep`). Each module
gets an entity that is kept if it declares something and removed again if not (`Draft.ModuleStep`).
`Draft.Grown` is the invariant of all of this: the draft was reached by steps of building, it leaves
the entities of earlier directories as they are, and the files in it were read in this directory and
are those of components that are new and all different. At the end of a directory the files are
noted, or the directory is removed (`Draft.Grown.builds_finish`).

## All directories

Building a project is a fold over its directories, in the order in which they are handed over, so
`builds_build` is an induction on that fold. Two facts about the source files of what is built are
read off right away: each was read in a directory of the project (`exists_readIn_of_build`), and
different ones are those of different components (`nodup_sources_of_build`).
-/

namespace CodeAtlas

/-! ### One directory -/

namespace Draft

variable {project : Project} {directory : Directory} {owner : Id} {kind : EntityKind}
  {name : QualName} {draft draft' : Draft} {ns : Namespace}

/-- Scanning a file reads it and declares what is in it. -/
theorem scan_eq_ok {component : Id} {file : String} {bytes : ByteArray}
    (h : scan project directory draft component file bytes = .ok draft') :
    ∃ statements, project.parse (directory.path ++ [file]) bytes = .ok statements ∧
      draft' = { draft with
        ns := draft.ns.declareAll component (Declaration.ofStmts statements) } := by
  obtain ⟨statements, hparse, hrest⟩ := bind_eq_ok_iff.1 h
  cases hrest
  exact ⟨statements, hparse, rfl⟩

/-- What the marker of a directory does to the draft that the directory starts with. -/
inductive MarkerStep (project : Project) (directory : Directory) (owner : Id) (ns : Namespace) :
    Option ByteArray → Draft → Prop
  | none : MarkerStep project directory owner ns none { ns }
  | some {bytes : ByteArray} {statements : List Stmt}
      (hparse : project.parse (directory.path ++ [markerName]) bytes = .ok statements) :
      MarkerStep project directory owner ns (some bytes)
        { ns := ns.declareAll owner (Declaration.ofStmts statements)
          sources := [⟨directory.path ++ [markerName], owner⟩] }

/-- Entering the marker of a directory, if it has one. -/
theorem markerStep_of_addMarker {marker : Option ByteArray}
    (h : addMarker project directory owner { ns } marker = .ok draft) :
    MarkerStep project directory owner ns marker draft := by
  cases marker with
  | none =>
    cases h
    exact .none
  | some bytes =>
    obtain ⟨scanned, hscan, hrest⟩ := bind_eq_ok_iff.1 h
    obtain ⟨statements, hparse, rfl⟩ := scan_eq_ok hscan
    cases hrest
    exact .some hparse

/-- What a module of a directory does to its draft: nothing if its name is taken; else it gets an
entity, which is kept if it declares something and removed again if not. -/
inductive ModuleStep (project : Project) (directory : Directory) (owner : Id) (file : String)
    (bytes : ByteArray) (draft : Draft) : Draft → Prop
  | skipped : ModuleStep project directory owner file bytes draft draft
  | kept {id : Id} {created declared : Namespace} {statements : List Stmt}
      (hcreate : draft.ns.create (.ofPath project.name directory.path (some file)) (.component {}) =
        some (id, created))
      (hparse : project.parse (directory.path ++ [file]) bytes = .ok statements)
      (hdeclared : created.declareAll id (Declaration.ofStmts statements) = declared)
      (hdeclares : declared.declares id = true) :
      ModuleStep project directory owner file bytes draft
        ⟨declared.attach owner id .component, draft.sources ++ [⟨directory.path ++ [file], id⟩],
          true⟩
  | dropped {id : Id} {created declared : Namespace} {statements : List Stmt}
      (hcreate : draft.ns.create (.ofPath project.name directory.path (some file)) (.component {}) =
        some (id, created))
      (hdeclared : created.declareAll id (Declaration.ofStmts statements) = declared)
      (hdeclares : declared.declares id = false) :
      ModuleStep project directory owner file bytes draft
        ⟨declared.prune id, draft.sources, draft.hasChildren⟩

/-- Entering a module: it is skipped, kept or dropped. -/
theorem moduleStep_of_addModule {file : String × ByteArray}
    (h : addModule project directory owner draft file = .ok draft') :
    ModuleStep project directory owner file.1 file.2 draft draft' := by
  unfold addModule at h
  split at h
  · cases h
    exact .skipped
  · next id created hcreate =>
    obtain ⟨scanned, hscan, hrest⟩ := bind_eq_ok_iff.1 h
    obtain ⟨statements, hparse, rfl⟩ := scan_eq_ok hscan
    dsimp only at hrest
    split at hrest
    · next hdeclares =>
      cases hrest
      exact .kept hcreate hparse rfl hdeclares
    · next hdeclares =>
      cases hrest
      exact .dropped hcreate rfl (Bool.eq_false_iff.2 hdeclares)

/-- What holds of a draft while a directory is built from a namespace: it has grown, the directory
has its entity, which is new, and the files that are kept were read in it and are those of
components that are new and all different. -/
structure Grown (project : Project) (directory : Directory) (ns : Namespace) (owner : Id)
    (kind : EntityKind) (name : QualName) (draft : Draft) : Prop
    extends ns.Extended ns.nextId draft.ns where
  steps : ns.Builds project draft.ns
  first : ns.nextId ≤ owner
  owner : draft.ns.HasEntity owner kind name
  live : ∀ f ∈ draft.sources, draft.ns.kind? f.component = some .component
  new : ∀ f ∈ draft.sources, ns.kind? f.component = none
  nodup : (draft.sources.map SourceFile.component).Nodup
  read : ∀ f ∈ draft.sources, project.ReadIn directory f

/-- Growing further, with the same files. -/
theorem Grown.step (h : draft.Grown project directory ns owner kind name) {ns' : Namespace}
    (h' : draft.ns.Extended ns.nextId ns') (hsteps : draft.ns.Builds project ns')
    (hasChildren : Bool) :
    Grown project directory ns owner kind name ⟨ns', draft.sources, hasChildren⟩ where
  toExtended := h.toExtended.trans h'
  steps := h.steps.trans hsteps
  first := h.first
  owner := h'.widens.hasEntity h.owner
  live f hf := h'.kind? (h.live f hf)
  new := h.new
  nodup := h.nodup
  read := h.read

/-- Keeping a further file, of a component that no file is of yet. -/
theorem Grown.keep (h : draft.Grown project directory ns owner kind name) {component : Id}
    {file : String} (hlive : draft.ns.kind? component = some .component)
    (hnew : ns.kind? component = none) (hother : ∀ f ∈ draft.sources, f.component ≠ component)
    (hread : project.ReadIn directory ⟨directory.path ++ [file], component⟩) :
    Grown project directory ns owner kind name (keep directory draft component file) := by
  have hcases : ∀ f ∈ (Draft.keep directory draft component file).sources,
      f ∈ draft.sources ∨ f = ⟨directory.path ++ [file], component⟩ := fun f hf ↦
    (List.mem_append.1 hf).imp_right List.mem_singleton.1
  refine ⟨h.toExtended, h.steps, h.first, h.owner, fun f hf ↦ ?_, fun f hf ↦ ?_, ?_, fun f hf ↦ ?_⟩
  · rcases hcases f hf with hf | rfl
    · exact h.live f hf
    · exact hlive
  · rcases hcases f hf with hf | rfl
    · exact h.new f hf
    · exact hnew
  · show (List.map _ (draft.sources ++ [_])).Nodup
    rw [List.map_append, List.nodup_append]
    refine ⟨h.nodup, List.nodup_cons.2 ⟨List.not_mem_nil, List.nodup_nil⟩, fun a ha b hb ↦ ?_⟩
    obtain ⟨f, hf, rfl⟩ := List.mem_map.1 ha
    obtain rfl := List.mem_singleton.1 hb
    exact hother f hf
  · rcases hcases f hf with hf | rfl
    · exact h.read f hf
    · exact hread

/-- The draft that a directory starts with. -/
theorem grown_start {created : Namespace} {body : Body} (h : ns.Tidy) (hbody : body.Container)
    (hcreate : ns.create name body = some (owner, created)) :
    Grown project directory ns owner body.kind name { ns := created } where
  toExtended := Namespace.extended_create h (Nat.le_refl _) hcreate
  steps := .single (.container hbody hcreate)
  first := Nat.le_of_eq (Namespace.create_eq_some_iff.1 hcreate).2.1.symm
  owner := Namespace.hasEntity_create hcreate
  live _ hf := absurd hf List.not_mem_nil
  new _ hf := absurd hf List.not_mem_nil
  nodup := List.nodup_nil
  read _ hf := absurd hf List.not_mem_nil

/-- A draft has grown after the marker of the directory was entered. -/
theorem Grown.marker {created : Namespace} {marker : Option ByteArray}
    (h : Grown project directory ns owner kind name { ns := created })
    (hfresh : ns.kind? owner = none) (hkind : marker.isSome → kind = .component)
    (hmem : ∀ bytes, marker = some bytes → .file markerName bytes ∈ directory.entries)
    (hstep : MarkerStep project directory owner created marker draft) :
    draft.Grown project directory ns owner kind name := by
  cases hstep with
  | none => exact h
  | @some bytes statements hparse =>
    have howner : created.HasEntity owner .component name := hkind rfl ▸ h.owner
    have hdeclares := Namespace.declares_declareAll h.tidy h.first howner
      (Declaration.ofStmts statements)
    have hextended := hdeclares.extended h.tidy
    refine (h.step hextended hdeclares.builds false).keep (hextended.kind? howner.kind?) hfresh ?_
      ⟨markerName, bytes, rfl, hmem bytes rfl, statements, hparse⟩
    intro f hf
    exact absurd hf List.not_mem_nil

/-- A namespace in which a module was entered: its component is new, and so is what it declares. -/
structure Entered (project : Project) (first : Id) (ns : Namespace) (id : Id) (name : QualName)
    (declared : Namespace) : Prop extends ns.Extended first declared where
  steps : ns.Builds project declared
  first_le : first ≤ id
  fresh : ns.kind? id = none
  component : declared.HasEntity id .component name

/-- A module that gets an entity and declares what is in it was entered. -/
theorem entered_declareAll {first id : Id} {created : Namespace} (h : ns.Tidy)
    (hfirst : first ≤ ns.nextId) (hcreate : ns.create name (.component {}) = some (id, created))
    (declarations : List Declaration) :
    Entered project first ns id name (created.declareAll id declarations) := by
  have hid : id = ns.nextId := (Namespace.create_eq_some_iff.1 hcreate).2.1
  have hcreated := Namespace.extended_create h hfirst hcreate
  have hcomponent := Namespace.hasEntity_create hcreate
  have hdeclares := Namespace.declares_declareAll hcreated.tidy (hid ▸ hfirst) hcomponent
    declarations
  have hextended := hdeclares.extended hcreated.tidy
  refine ⟨hcreated.trans hextended, .head (.container (.component false) hcreate) hdeclares.builds,
    hid ▸ hfirst, ?_, hextended.widens.hasEntity hcomponent⟩
  rw [hid]
  exact h.bounded.kind?_nextId

/-- A draft that has grown has still grown after a module. -/
theorem Grown.moduleStep {file : String} {bytes : ByteArray}
    (h : draft.Grown project directory ns owner kind name) (hlive : ns.SourcesLive)
    (hmem : .file file bytes ∈ directory.entries)
    (hstep : ModuleStep project directory owner file bytes draft draft') :
    draft'.Grown project directory ns owner kind name := by
  cases hstep with
  | skipped => exact h
  | @kept id created _ statements hcreate hparse hdeclared hdeclares =>
    have hentered : Entered project ns.nextId draft.ns id _ _ :=
      entered_declareAll h.tidy h.nextId hcreate (Declaration.ofStmts statements)
    rw [hdeclared] at hentered
    have hfresh := hentered.fresh
    -- no file is of the component of the module, which is new
    have hother : ∀ f ∈ draft.sources, f.component ≠ id := by
      rintro f hf rfl
      rw [h.live f hf] at hfresh
      cases hfresh
    have hnew : ns.kind? id = none := by
      cases hk : ns.kind? id with
      | none => rfl
      | some k =>
        rw [h.kind? hk] at hfresh
        cases hfresh
    have hkept := (h.step hentered.toExtended hentered.steps draft.hasChildren).keep
      hentered.component.kind? hnew hother ⟨file, bytes, rfl, hmem, statements, hparse⟩
    exact hkept.step (Namespace.extended_attach hentered.tidy h.first id .component)
      (.single (.attach hentered.component.kind? owner)) true
  | @dropped id created _ statements hcreate hdeclared hdeclares =>
    have hentered : Entered project ns.nextId draft.ns id _ _ :=
      entered_declareAll h.tidy h.nextId hcreate (Declaration.ofStmts statements)
    rw [hdeclared] at hentered
    refine h.step (hentered.toExtended.prune hentered.first_le hentered.fresh)
      (hentered.steps.tail ?_) draft.hasChildren
    refine .prune (.inr hentered.component.kind?) hdeclares fun f hf heq ↦ ?_
    rw [hentered.sources, h.sources] at hf
    have hgone := h.kind? (hlive f hf)
    rw [heq, hentered.fresh] at hgone
    cases hgone

/-- A draft that has grown has still grown after a directory inside was attached. -/
theorem Grown.addSubdirectory (subdirectory : String)
    (h : draft.Grown project directory ns owner kind name) :
    (addSubdirectory project directory owner draft subdirectory).Grown project directory ns owner
      kind name := by
  unfold Draft.addSubdirectory
  dsimp only
  split
  · exact h
  · next e hfind =>
    obtain ⟨id, hlookup, hget⟩ := Option.bind_eq_some_iff.1 hfind
    have hchild : draft.ns.kind? e.id = some e.kind := by
      rw [Namespace.kind?, h.tidy.id_eq id e hget, hget]
      rfl
    exact h.step (Namespace.extended_attach h.tidy h.first e.id e.kind)
      (.single (.attach hchild owner)) true

/-- A draft that has grown has still grown after all directories inside were attached. -/
theorem Grown.addSubdirectories (subdirectories : List String)
    (h : draft.Grown project directory ns owner kind name) :
    (subdirectories.foldl (Draft.addSubdirectory project directory owner) draft).Grown project
      directory ns owner kind name := by
  induction subdirectories generalizing draft with
  | nil => exact h
  | cons subdirectory rest ih => exact ih (h.addSubdirectory subdirectory)

/-- Ending a directory notes the files that are kept, or removes the directory. -/
theorem Grown.builds_finish (h : draft.Grown project directory ns owner kind name)
    (hcontainer : kind = .package ∨ kind = .component) (hfresh : ns.kind? owner = none)
    (hlive : ns.SourcesLive) (hdirectory : directory ∈ project.directories) :
    ns.Builds project (draft.finish owner).1 := by
  unfold finish
  split
  · refine h.steps.tail (.keep ⟨h.live, fun f hf g hg heq ↦ ?_, h.nodup,
      directory, hdirectory, h.read⟩)
    have hgone := h.new f hf
    rw [heq, hlive g (h.sources ▸ hg)] at hgone
    cases hgone
  · next hempty =>
    simp only [Bool.or_eq_true, not_or, Bool.not_eq_true] at hempty
    have hkind : draft.ns.kind? owner = some .package ∨ draft.ns.kind? owner = some .component := by
      rw [h.owner.kind?]
      exact hcontainer.imp (congrArg some) (congrArg some)
    refine h.steps.tail (.prune hkind hempty.2 fun f hf heq ↦ ?_)
    have hgone := hlive f (h.sources ▸ hf)
    rw [heq, hfresh] at hgone
    cases hgone

end Draft

/-! ### What is listed -/

section Listing

variable {filter : Filter} {d : Directory} {file : String} {bytes : ByteArray}

/-- A module that is listed is a file of the directory. -/
theorem Directory.mem_of_mem_modules (h : (file, bytes) ∈ (d.listing filter).modules) :
    .file file bytes ∈ d.entries := by
  obtain ⟨e, he, heq⟩ := List.mem_filterMap.1 h
  cases e with
  | directory => cases heq
  | file name content =>
    dsimp only at heq
    split at heq
    · cases heq
      exact (List.mem_filter.1 he).1
    · cases heq

/-- The marker is no module. -/
theorem Directory.ne_of_mem_modules (h : (file, bytes) ∈ (d.listing filter).modules) :
    file ≠ markerName := by
  obtain ⟨e, he, heq⟩ := List.mem_filterMap.1 h
  cases e with
  | directory => cases heq
  | file name content =>
    dsimp only at heq
    split at heq
    · next hmodule =>
      cases heq
      simp only [ne_eq, Bool.and_eq_true, decide_eq_true_eq] at hmodule
      exact hmodule.1
    · cases heq

/-- A marker that is listed is a file of the directory, with the name of a marker. -/
theorem Directory.mem_of_marker (h : (d.listing filter).marker = some bytes) :
    .file markerName bytes ∈ d.entries := by
  obtain ⟨e, he, heq⟩ := List.exists_of_findSome?_eq_some h
  cases e with
  | directory => cases heq
  | file name content =>
    dsimp only at heq
    split at heq
    · next hname =>
      cases heq
      exact hname ▸ (List.mem_filter.1 he).1
    · cases heq

/-- A directory starts with the body of a package or of a component. -/
theorem Listing.container_body (l : Listing) : l.body.Container := by
  unfold Listing.body
  split
  · exact .component true
  · exact .package

theorem Listing.kind_body (l : Listing) : l.body.kind = .package ∨ l.body.kind = .component := by
  unfold Listing.body
  split
  · exact .inr rfl
  · exact .inl rfl

end Listing

/-! ### All directories -/

namespace Namespace

variable {project : Project} {directory : Directory} {ns ns' : Namespace} {kept : Option Id}

/-- Building a directory: nothing is done if its name is taken; else it gets an entity, its marker
and its modules are entered, and the directories inside are attached. -/
theorem buildDirectory_eq_ok (hok : ns.buildDirectory project directory = .ok (ns', kept)) :
    ((ns.lookup (.ofPath project.name directory.path none)).isSome ∧ ns' = ns ∧ kept = none) ∨
      ∃ created marked filled,
        ns.create (.ofPath project.name directory.path none)
            (directory.listing project.filter).body = some (ns.nextId, created) ∧
          Draft.MarkerStep project directory ns.nextId created
            (directory.listing project.filter).marker marked ∧
          (directory.listing project.filter).modules.foldlM
            (Draft.addModule project directory ns.nextId) marked = .ok filled ∧
          ((directory.listing project.filter).subdirectories.foldl
            (Draft.addSubdirectory project directory ns.nextId) filled).finish ns.nextId =
              (ns', kept) := by
  unfold buildDirectory at hok
  dsimp only at hok
  split at hok
  · next hcreate =>
    cases hok
    exact .inl ⟨create_eq_none_iff.1 hcreate, rfl, rfl⟩
  · next id created hcreate =>
    obtain rfl : id = ns.nextId := (create_eq_some_iff.1 hcreate).2.1
    obtain ⟨marked, hmarked, hrest⟩ := bind_eq_ok_iff.1 hok
    obtain ⟨filled, hfilled, hrest⟩ := bind_eq_ok_iff.1 hrest
    exact .inr ⟨created, marked, filled, hcreate, Draft.markerStep_of_addMarker hmarked, hfilled,
      Except.ok.inj hrest⟩

/-- Building one directory is a sequence of steps of building. -/
theorem builds_buildDirectory (h : ns.Tidy) (hlive : ns.SourcesLive)
    (hdirectory : directory ∈ project.directories)
    (hok : ns.buildDirectory project directory = .ok (ns', kept)) : ns.Builds project ns' := by
  rcases buildDirectory_eq_ok hok with ⟨-, rfl, -⟩ | ⟨created, marked, filled, hcreate, hmarked,
    hfilled, hfinish⟩
  · exact .refl
  · have hfresh := h.bounded.kind?_nextId
    have hmarked := (Draft.grown_start h (Listing.container_body _) hcreate).marker hfresh
      (fun hmarker ↦ by rw [Listing.body, if_pos hmarker]; rfl)
      (fun bytes ↦ Directory.mem_of_marker) hmarked
    have hfilled := foldlM_ok_induction (Draft.Grown project directory ns ns.nextId _ _)
      (fun _ file hfile _ hdraft hok ↦ hdraft.moduleStep hlive
        (Directory.mem_of_mem_modules hfile) (Draft.moduleStep_of_addModule hok)) hmarked hfilled
    have hbuilds := (hfilled.addSubdirectories
      (directory.listing project.filter).subdirectories).builds_finish (Listing.kind_body _) hfresh
      hlive hdirectory
    rw [hfinish] at hbuilds
    exact hbuilds

/-- **Building.** What is built is reached from the empty namespace by steps of building. -/
theorem builds_build (h : project.build = .ok ns) :
    Builds project { project := project.name } ns := by
  have hempty : SourcesLive { project := project.name } := fun f hf ↦ absurd hf List.not_mem_nil
  refine foldlM_ok_induction (Builds project { project := project.name })
    (fun ns directory hdirectory ns' hns hok ↦ ?_) .refl h
  obtain ⟨htidy, hlive⟩ := hns.tidy_sourcesLive (tidy_empty project.name) hempty
  obtain ⟨⟨built, kept⟩, hbuilt, hrest⟩ := bind_eq_ok_iff.1 hok
  have hsteps := hns.trans (builds_buildDirectory htidy hlive hdirectory hbuilt)
  cases hrest
  split
  · exact hsteps.tail (.root kept)
  · exact hsteps

/-- **Induction on building.** What holds of the empty namespace and is kept by each step holds of
what is built. -/
theorem build_induction (holds : Namespace → Prop) (h : project.build = .ok ns)
    (hempty : holds { project := project.name })
    (hstep : ∀ ns ns', ns.Tidy → ns.SourcesLive → BuildStep project ns ns' → holds ns →
      holds ns') : holds ns := by
  have hnone : SourcesLive { project := project.name } := fun f hf ↦ absurd hf List.not_mem_nil
  have hall : holds ns ∧ ns.Tidy ∧ ns.SourcesLive := by
    have hsteps := builds_build h
    clear h
    induction hsteps with
    | refl => exact ⟨hempty, tidy_empty project.name, hnone⟩
    | tail _ hone ih =>
      obtain ⟨hholds, htidy, hlive⟩ := ih
      exact ⟨hstep _ _ htidy hlive hone hholds, hone.tidy htidy, hone.sourcesLive htidy hlive⟩
  exact hall.1

/-- Each source file was read in a directory of the project. -/
theorem exists_readIn_of_build (h : project.build = .ok ns) :
    ∀ f ∈ ns.sources, ∃ d ∈ project.directories, project.ReadIn d f := by
  refine build_induction (fun ns ↦ ∀ f ∈ ns.sources, ∃ d ∈ project.directories,
    project.ReadIn d f) h (fun f hf ↦ absurd hf List.not_mem_nil) fun ns ns' _ _ hstep hall ↦ ?_
  rcases hstep.sources_cases with hsources | ⟨files, hfiles, rfl⟩
  · rw [hsources]
    exact hall
  · obtain ⟨d, hd, hread⟩ := hfiles.read
    intro f hf
    exact (List.mem_append.1 hf).elim (hall f) fun hf ↦ ⟨d, hd, hread f hf⟩

/-- Different source files are those of different components. -/
theorem nodup_sources_of_build (h : project.build = .ok ns) :
    (ns.sources.map SourceFile.component).Nodup := by
  refine build_induction (fun ns ↦ (ns.sources.map SourceFile.component).Nodup) h
    List.nodup_nil fun ns ns' _ _ hstep hnodup ↦ ?_
  rcases hstep.sources_cases with hsources | ⟨files, hfiles, rfl⟩
  · rw [hsources]
    exact hnodup
  · rw [List.map_append, List.nodup_append]
    refine ⟨hnodup, hfiles.nodup, fun a ha b hb ↦ ?_⟩
    obtain ⟨g, hg, rfl⟩ := List.mem_map.1 ha
    obtain ⟨f, hf, rfl⟩ := List.mem_map.1 hb
    exact (hfiles.new f hf g hg).symm

/-- What holds of new bodies, and is kept where a body declares something or gets children, holds of
the body of each entity that is built. -/
theorem forall_body_of_build {holds : Body → Prop} (h : project.build = .ok ns)
    (hcontainer : ∀ b, b.Container → holds b)
    (hdeclarable : ∀ kind b, Body.Declarable kind b → holds b)
    (hdeclaring : ∀ short name id kind b, holds b → holds (b.declaring short name id kind))
    (hchildren : ∀ f b, holds b → holds (b.mapChildren f))
    (id : Id) (e : Entity) (he : ns.get? id = some e) : holds e.body := by
  refine build_induction (fun ns ↦ ∀ i e, ns.get? i = some e → holds e.body) h
    (fun i e he ↦ by simp [get?] at he) (fun ns ns' htidy _ hstep hall ↦ ?_) id e he
  refine hstep.forall_entity (fun _ e ↦ holds e.body) htidy (fun _ he ↦ he) ?_
    (fun e id body short _ _ he ↦ hdeclaring short _ id body.kind e.body he)
    (fun e f he ↦ hchildren f e.body he) hall
  rintro i q b (hb | ⟨kind, hb⟩)
  · exact hcontainer b hb
  · exact hdeclarable kind b hb

end Namespace

end CodeAtlas
