import Mathlib.Logic.Relation
import CodeAtlas.Proofs.Shelves

/-!
# The steps of building

Building a project changes its namespace in few ways, which `BuildStep` lists: a directory or a
module gets an entity, an entity declares another, an entity is attached to another, a module or
directory without declarations is removed, the files of a directory are noted, and the root is. This
module is about single steps; that building makes such steps and no others is in
`CodeAtlas.Proofs.Building`.

## What a step does

A directory or a module starts with one of the bodies of `Body.Container`. What may be declared is
given by the kind of what declares it (`Body.Declarable`): a module declares classes and functions,
and a class methods. `Body.declaring` is the change to the body that declares.

## What all steps keep

Every step keeps a namespace tidy (`BuildStep.tidy`) and the source files those of components that
are there (`BuildStep.sourcesLive`). Entities stay, except those that are removed
(`BuildStep.hasEntity`), and source files are added at one kind of step only
(`BuildStep.sources_cases`). For what is said of one entity at a time, it is enough to look at new
entities and at changes to one (`BuildStep.forall_entity`).

## Growth and declarations

What is done for one directory leaves the entities of earlier directories as they are, which have
lower numbers (`Extended`). Declaring is the part that happens inside modules: `DeclareStep` is one
declaration, made by an entity whose number is not below a given one, and `Declares` is a sequence
of them. Entering a module is such a sequence (`declares_declareAll`).
-/

namespace CodeAtlas

/-! ### What a step does -/

namespace Body

/-- The bodies that directories and modules start with. -/
inductive Container : Body → Prop
  | package : Container (.package {})
  | component (isDirectory : Bool) : Container (.component { isDirectory })

/-- What an entity of some kind declares: a module classes and functions, a class methods. -/
inductive Declarable : EntityKind → Body → Prop
  | cls : Declarable .component (.cls {})
  | function (f : FunctionDecl) : Declarable .component (Namespace.functionBody f)
  | method (f : FunctionDecl) : Declarable .cls (Namespace.functionBody f)

/-- A body that has declared an entity of some kind under a short name. -/
def declaring (short : String) (name : QualName) (id : Id) (kind : EntityKind) : Body → Body
  | component c =>
    let scope := { c.scope with declared := c.scope.declared.insert short name }
    match kind with
    | .cls => component { c with classes := c.classes.insert id, scope }
    | _ => component { c with functions := c.functions.insert id, scope }
  | cls c =>
    let scope := { c.scope with declared := c.scope.declared.insert short name }
    cls { c with methods := c.methods.insert id, scope }
  | b => b

variable {b body : Body} {kind : EntityKind} {i : Id} {s : Shelf}

theorem Container.shelf_eq (h : b.Container) (s : Shelf) : b.shelf s = ∅ := by
  cases h with
  | package | component => cases s <;> rfl

theorem Declarable.shelf_eq (h : Declarable kind body) (s : Shelf) : body.shelf s = ∅ := by
  cases h with
  | cls | function | method => cases s <;> rfl

/-- What is declared is on a shelf for things of its kind. -/
theorem Declarable.admits (h : Declarable kind body) :
    (Shelf.declared kind body.kind).Admits body.kind := by
  cases h with
  | cls | function | method => rfl

/-- What is declared is not attached. -/
theorem Declarable.ne_declared (h : Declarable kind body) (hs : s = .packages ∨ s = .components) :
    s ≠ .declared kind body.kind := by
  cases h with
  | cls | function | method => rcases hs with rfl | rfl <;> exact nofun

/-- Modules and directories are not declared. -/
theorem Declarable.not_container (h : Declarable kind body) :
    ¬ (body.kind = .package ∨ body.kind = .component) := by
  cases h with
  | cls | function f | method f => exact fun h ↦ h.elim nofun nofun

/-- Declaring something puts it on one shelf. -/
theorem mem_shelf_declaring (h : Declarable b.kind body) (short : String) (name : QualName)
    (id : Id) : i ∈ (b.declaring short name id body.kind).shelf s ↔
      i ∈ b.shelf s ∨ s = .declared b.kind body.kind ∧ i = id := by
  cases b with
  | package | function => cases h
  | component =>
    cases h with
    | cls | function =>
      cases s <;>
        simp [declaring, shelf, kind, Shelf.declared, Namespace.functionBody, or_comm,
          @eq_comm _ id]
  | cls =>
    cases h with
    | method =>
      cases s <;>
        simp [declaring, shelf, kind, Shelf.declared, Namespace.functionBody, or_comm,
          @eq_comm _ id]

@[simp]
theorem isDirectory_declaring (short : String) (name : QualName) (id : Id) (kind : EntityKind)
    (b : Body) : (b.declaring short name id kind).isDirectory = b.isDirectory := by
  cases b with
  | component => cases kind <;> rfl
  | package | cls | function => rfl

@[simp]
theorem kind_declaring (short : String) (name : QualName) (id : Id) (kind : EntityKind) (b : Body) :
    (b.declaring short name id kind).kind = b.kind := by
  cases b with
  | component => cases kind <;> rfl
  | package | cls | function => rfl

end Body

namespace Declaration

/-- The name that is declared. -/
def name : Declaration → Ident
  | classDecl name _ => name
  | functionDecl f => f.name

/-- What the declared entity starts with. -/
def body : Declaration → Body
  | classDecl .. => .cls {}
  | functionDecl f => Namespace.functionBody f

/-- What a module declares may be declared by a component. -/
theorem declarable_body (d : Declaration) : Body.Declarable .component d.body := by
  cases d with
  | classDecl => exact .cls
  | functionDecl f => exact .function f

end Declaration

/-- A file was read in a directory, with success. -/
def Project.ReadIn (project : Project) (directory : Directory) (f : SourceFile) : Prop :=
  ∃ name bytes, f.path = directory.path ++ [name] ∧ .file name bytes ∈ directory.entries ∧
    ∃ statements, project.parse f.path bytes = .ok statements

namespace Namespace

/-- Each source file is that of a component that is there. -/
def SourcesLive (ns : Namespace) : Prop :=
  ∀ f ∈ ns.sources, ns.kind? f.component = some .component

/-- Files that may be noted in a namespace: each was read in one directory, and is that of a
component that is there and has no other file. -/
structure Notable (project : Project) (ns : Namespace) (files : List SourceFile) : Prop where
  live : ∀ f ∈ files, ns.kind? f.component = some .component
  new : ∀ f ∈ files, ∀ g ∈ ns.sources, f.component ≠ g.component
  nodup : (files.map SourceFile.component).Nodup
  read : ∃ d ∈ project.directories, ∀ f ∈ files, project.ReadIn d f

/-- What building a project does to a namespace at a time. -/
inductive BuildStep (project : Project) : Namespace → Namespace → Prop
  /-- A directory or a module gets an entity. -/
  | container {ns ns' : Namespace} {name : QualName} {body : Body} {id : Id}
      (hbody : body.Container) (h : ns.create name body = some (id, ns')) :
      BuildStep project ns ns'
  /-- An entity declares another. -/
  | declare {ns created : Namespace} {owner id : Id} {e : Entity} {short : String} {body : Body}
      (howner : ns.get? owner = some e) (hbody : Body.Declarable e.kind body)
      (h : ns.create (e.qualName.child short) body = some (id, created)) :
      BuildStep project ns
        (created.modify owner (Body.declaring short (e.qualName.child short) id body.kind))
  /-- An entity is attached to another. -/
  | attach {ns : Namespace} {child : Id} {kind : EntityKind} (hchild : ns.kind? child = some kind)
      (owner : Id) : BuildStep project ns (ns.attach owner child kind)
  /-- A module or a directory that declares nothing is removed, which no source file is of. -/
  | prune {ns : Namespace} {id : Id}
      (hkind : ns.kind? id = some .package ∨ ns.kind? id = some .component)
      (hdeclares : ns.declares id = false) (hsources : ∀ f ∈ ns.sources, f.component ≠ id) :
      BuildStep project ns (ns.prune id)
  /-- The files of a directory are noted. -/
  | keep {ns : Namespace} {files : List SourceFile} (h : Notable project ns files) :
      BuildStep project ns { ns with sources := ns.sources ++ files }
  /-- The root is noted. -/
  | root {ns : Namespace} (root : Option Id) : BuildStep project ns { ns with root }

/-- Steps of building, one after another. -/
abbrev Builds (project : Project) : Namespace → Namespace → Prop :=
  Relation.ReflTransGen (BuildStep project)

variable {project : Project} {ns ns' ns'' created : Namespace} {first owner id i : Id} {e : Entity}
  {name q : QualName} {body : Body} {short : String} {kind : EntityKind}

/-! ### What all steps keep -/

/-- Every step keeps the two tables in step. -/
theorem BuildStep.tidy (h : BuildStep project ns ns') (htidy : ns.Tidy) : ns'.Tidy := by
  cases h with
  | container _ hcreate => exact htidy.create hcreate
  | declare _ _ hcreate => exact (htidy.create hcreate).modify
  | attach => exact htidy.modify
  | prune => exact htidy.prune
  | keep | root =>
    exact ⟨⟨htidy.exists_of_lookup, htidy.lookup_of_get?⟩, htidy.bounded, htidy.id_eq⟩

/-- Entities stay, except those that are removed. -/
theorem BuildStep.hasEntity {id : Id} {kind : EntityKind} {name : QualName}
    (h : BuildStep project ns ns') (htidy : ns.Tidy) (hid : ns.HasEntity id kind name) :
    ns'.HasEntity id kind name ∨
      ns' = ns.prune id ∧ (kind = .package ∨ kind = .component) ∧
        ∀ f ∈ ns.sources, f.component ≠ id := by
  cases h with
  | container _ hcreate => exact .inl (hid.create htidy.bounded hcreate)
  | declare _ _ hcreate =>
    exact .inl ((hid.create htidy.bounded hcreate).modify (Body.kind_declaring _ _ _ _))
  | attach => exact .inl (hid.modify (Body.kind_mapChildren · _))
  | @prune i hkind _ hsources =>
    by_cases hi : id = i
    · subst hi
      refine .inr ⟨rfl, ?_, hsources⟩
      rw [hid.kind?] at hkind
      exact hkind.imp Option.some.inj Option.some.inj
    · exact .inl (hid.prune hi)
  | keep | root => exact .inl hid

/-- Source files change only where files are noted. -/
theorem BuildStep.sources_cases (h : BuildStep project ns ns') :
    ns'.sources = ns.sources ∨
      ∃ files, Notable project ns files ∧ ns' = { ns with sources := ns.sources ++ files } := by
  cases h with
  | container _ hcreate => exact .inl (sources_create hcreate)
  | declare _ _ hcreate => exact .inl (sources_modify.trans (sources_create hcreate))
  | attach => exact .inl sources_modify
  | prune => exact .inl sources_prune
  | keep hfiles => exact .inr ⟨_, hfiles, rfl⟩
  | root => exact .inl rfl

/-- In every step the components of the source files stay. -/
theorem BuildStep.sourcesLive (h : BuildStep project ns ns') (htidy : ns.Tidy)
    (hlive : ns.SourcesLive) : ns'.SourcesLive := by
  intro f hf
  have hkept : f ∈ ns.sources → ns'.kind? f.component = some .component := by
    intro hf
    obtain ⟨name, hcomponent⟩ := exists_hasEntity (hlive f hf)
    rcases h.hasEntity htidy hcomponent with hcomponent | ⟨-, -, hsources⟩
    · exact hcomponent.kind?
    · exact absurd rfl (hsources f hf)
  rcases h.sources_cases with hsources | ⟨files, hfiles, rfl⟩
  · exact hkept (hsources ▸ hf)
  · exact (List.mem_append.1 hf).elim hkept (hfiles.live f)

/-- Every sequence of steps keeps the two tables in step and the components of source files. -/
theorem Builds.tidy_sourcesLive (h : ns.Builds project ns') (htidy : ns.Tidy)
    (hlive : ns.SourcesLive) : ns'.Tidy ∧ ns'.SourcesLive := by
  induction h with
  | refl => exact ⟨htidy, hlive⟩
  | tail _ hstep ih => exact ⟨hstep.tidy ih.1, hstep.sourcesLive ih.1 ih.2⟩

/-- What becomes of an entity in one step: it is new and holds nothing, it declares the entity that
is new, it gets children, or it is as it was. -/
theorem BuildStep.forall_entity (holds : Namespace → Entity → Prop)
    (hstep : BuildStep project ns ns') (htidy : ns.Tidy) (hmono : ∀ e, holds ns e → holds ns' e)
    (hnew : ∀ i q b, (b.Container ∨ ∃ kind, Body.Declarable kind b) → holds ns' ⟨i, q, b⟩)
    (hdeclaring : ∀ e id body short, Body.Declarable e.kind body →
      ns'.HasEntity id body.kind (e.qualName.child short) → holds ns' e → holds ns' { e with
        body := e.body.declaring short (e.qualName.child short) id body.kind })
    (hchildren : ∀ e f, holds ns' e → holds ns' { e with body := e.body.mapChildren f })
    (h : ∀ i e, ns.get? i = some e → holds ns e) : ∀ i e, ns'.get? i = some e → holds ns' e := by
  have hold : ∀ i e, ns.get? i = some e → holds ns' e := fun i e he ↦ hmono e (h i e he)
  intro i e' he'
  cases hstep with
  | container hbody hcreate =>
    rw [get?_create hcreate] at he'
    split at he'
    · cases he'
      exact hnew _ _ _ (.inl hbody)
    · exact hold i e' he'
  | @declare created owner id e short body howner hbody hcreate =>
    have hne : owner ≠ id := HasEntity.ne_of_create ⟨e, howner, rfl, rfl⟩ htidy.bounded hcreate
    rw [get?_modify, get?_create hcreate, get?_create hcreate, if_neg hne, howner] at he'
    split at he'
    · cases he'
      exact hdeclaring e id body short hbody
        ((hasEntity_create hcreate).modify (Body.kind_declaring _ _ _ _)) (hold owner e howner)
    · split at he'
      · cases he'
        exact hnew _ _ _ (.inr ⟨_, hbody⟩)
      · exact hold i e' he'
  | @attach child kind hchild owner =>
    rw [Namespace.attach, get?_modify] at he'
    split at he'
    · obtain ⟨e, he, rfl⟩ := Option.map_eq_some_iff.1 he'
      exact hchildren e _ (hold owner e he)
    · exact hold i e' he'
  | prune =>
    rw [get?_prune] at he'
    split at he'
    · cases he'
    · exact hold i e' he'
  | keep | root => exact hold i e' he'

/-! ### Growth -/

/-- A tidy namespace that has more than another: the entities that were there were only added to,
those with a number below `first` are as they were, and so are the source files. -/
structure Extended (first : Id) (ns ns' : Namespace) : Prop where
  tidy : ns'.Tidy
  widens : ns.Widens ns'
  nextId : ns.nextId ≤ ns'.nextId
  below : ∀ i < first, ns'.get? i = ns.get? i
  sources : ns'.sources = ns.sources

namespace Extended

theorem refl (h : ns.Tidy) : ns.Extended first ns :=
  ⟨h, .refl ns, Nat.le_refl _, fun _ _ ↦ rfl, rfl⟩

theorem trans (h : ns.Extended first ns') (h' : ns'.Extended first ns'') :
    ns.Extended first ns'' where
  tidy := h'.tidy
  widens := h.widens.trans h'.widens
  nextId := Nat.le_trans h.nextId h'.nextId
  below i hi := (h'.below i hi).trans (h.below i hi)
  sources := h'.sources.trans h.sources

/-- An extension that leaves more entities as they are also leaves fewer as they are. -/
theorem mono (h : ns.Extended first ns') {earlier : Id} (hle : earlier ≤ first) :
    ns.Extended earlier ns' :=
  { h with below := fun i hi ↦ h.below i (Nat.lt_of_lt_of_le hi hle) }

theorem kind? (h : ns.Extended first ns') (hk : ns.kind? id = some kind) :
    ns'.kind? id = some kind :=
  h.widens.kind? hk

/-- Removing what was not there keeps the entities that were. -/
theorem prune (h : ns.Extended first ns') (hfirst : first ≤ id) (hfresh : ns.kind? id = none) :
    ns.Extended first (ns'.prune id) where
  tidy := h.tidy.prune
  widens := h.widens.prune hfresh
  nextId := Nat.le_trans h.nextId (Nat.le_of_eq nextId_prune.symm)
  below i hi := by
    rw [get?_prune, if_neg (Nat.ne_of_lt (Nat.lt_of_lt_of_le hi hfirst)), h.below i hi]
  sources := sources_prune.trans h.sources

end Extended

/-- Creating an entity leaves those with lower numbers as they are. -/
theorem extended_create (h : ns.Tidy) (hfirst : first ≤ ns.nextId)
    (hcreate : ns.create name body = some (id, ns')) : ns.Extended first ns' where
  tidy := h.create hcreate
  widens := widens_create h.bounded hcreate
  nextId := le_nextId_create hcreate
  below _ hi := get?_create_of_lt hcreate (Nat.lt_of_lt_of_le hi hfirst)
  sources := sources_create hcreate

/-- Attaching to an entity leaves those with lower numbers as they are. -/
theorem extended_attach (h : ns.Tidy) (hfirst : first ≤ owner) (child : Id) (kind : EntityKind) :
    ns.Extended first (ns.attach owner child kind) where
  tidy := h.modify
  widens := widens_attach ns owner child kind
  nextId := Nat.le_of_eq nextId_modify.symm
  below i hi := by
    rw [attach, get?_modify, if_neg (Nat.ne_of_lt (Nat.lt_of_lt_of_le hi hfirst))]
  sources := sources_modify

/-! ### Declarations -/

/-- An entity, with a number from `first` on, declares another. -/
inductive DeclareStep (first : Id) (ns : Namespace) : Namespace → Prop
  | intro {created : Namespace} {owner id : Id} {e : Entity} {short : Ident} {body : Body}
      (hfirst : first ≤ owner) (howner : ns.get? owner = some e)
      (hbody : Body.Declarable e.kind body)
      (h : ns.create (e.qualName.child short.text) body = some (id, created)) :
      DeclareStep first ns (created.modify owner
        (Body.declaring short.text (e.qualName.child short.text) id body.kind))

/-- Declarations, one after another. -/
abbrev Declares (first : Id) : Namespace → Namespace → Prop :=
  Relation.ReflTransGen (DeclareStep first)

/-- Entities with numbers from `first` on have numbers from any earlier one on. -/
theorem Declares.mono (hsteps : Declares first ns ns') {earlier : Id} (hle : earlier ≤ first) :
    Declares earlier ns ns' := by
  refine Relation.ReflTransGen.mono (fun ns ns' hstep ↦ ?_) _ _ hsteps
  obtain ⟨hfirst, howner, hbody, hcreate⟩ := hstep
  exact .intro (Nat.le_trans hle hfirst) howner hbody hcreate

/-- A declaration brings one entity, of the kind of its body. -/
theorem kind?_declaring (hcreate : ns.create name body = some (id, created)) (owner : Id)
    (short : String) :
    (created.modify owner (Body.declaring short name id body.kind)).kind? i =
      if i = id then some body.kind else ns.kind? i := by
  rw [kind?_modify (Body.kind_declaring _ _ _ _), kind?_create hcreate]

/-- What is declared is held, and nothing else changes. -/
theorem holds_declaring (hb : ns.Bounded) (howner : ns.get? owner = some e)
    (hbody : Body.Declarable e.kind body) (hcreate : ns.create name body = some (id, created))
    (short : String) {o : Id} {s : Shelf} :
    (created.modify owner (Body.declaring short name id body.kind)).Holds o s i ↔
      ns.Holds o s i ∨ o = owner ∧ s = .declared e.kind body.kind ∧ i = id := by
  have hne : owner ≠ id := HasEntity.ne_of_create ⟨e, howner, rfl, rfl⟩ hb hcreate
  have howner' : created.get? owner = some e := by
    rw [get?_create hcreate, if_neg hne, howner]
  rw [holds_modify howner' fun s i ↦ Body.mem_shelf_declaring hbody _ _ _,
    holds_create hb hbody.shelf_eq hcreate]
  rfl

/-- A declaration leaves the entities before `first` as they are. -/
theorem DeclareStep.extended (hstep : DeclareStep first ns ns') (h : ns.Tidy) :
    ns.Extended first ns' := by
  obtain @⟨created, owner, id, e, short, body, hfirst, howner, hbody, hcreate⟩ := hstep
  have hlt : owner < ns.nextId := h.bounded owner (by rw [Namespace.kind?, howner]; rfl)
  have hne : owner ≠ id := HasEntity.ne_of_create ⟨e, howner, rfl, rfl⟩ h.bounded hcreate
  refine (extended_create h (Nat.le_trans hfirst (Nat.le_of_lt hlt)) hcreate).trans
    ⟨(h.create hcreate).modify, widens_modify fun e' he' ↦ ?_,
      Nat.le_of_eq nextId_modify.symm, fun i hi ↦ ?_, sources_modify⟩
  · rw [get?_create hcreate, if_neg hne, howner] at he'
    cases he'
    refine ⟨rfl, Body.kind_declaring _ _ _ _ _, Body.isDirectory_declaring _ _ _ _ _,
      fun s i hi ↦ ?_⟩
    exact (Body.mem_shelf_declaring hbody _ _ _).2 (.inl hi)
  · rw [get?_modify, if_neg (Nat.ne_of_lt (Nat.lt_of_lt_of_le hi hfirst))]

/-- Declarations leave the entities before `first` as they are. -/
theorem Declares.extended (hsteps : Declares first ns ns') (h : ns.Tidy) :
    ns.Extended first ns' := by
  induction hsteps with
  | refl => exact .refl h
  | tail _ hstep ih => exact ih.trans (hstep.extended ih.tidy)

/-- Declarations bring no modules and no directories. -/
theorem Declares.kind?_eq (hsteps : Declares first ns ns')
    (hkind : kind = .package ∨ kind = .component) (hi : ns'.kind? i = some kind) :
    ns.kind? i = some kind := by
  induction hsteps with
  | refl => exact hi
  | tail _ hstep ih =>
    obtain ⟨-, -, hbody, hcreate⟩ := hstep
    rw [kind?_declaring hcreate] at hi
    split at hi
    · cases hi
      exact absurd hkind hbody.not_container
    · exact ih hi

/-- Declarations attach nothing. -/
theorem Declares.holds_iff (hsteps : Declares first ns ns') (h : ns.Tidy) {s : Shelf}
    (hs : s = .packages ∨ s = .components) : ns'.Holds owner s i ↔ ns.Holds owner s i := by
  induction hsteps with
  | refl => exact Iff.rfl
  | tail hsteps hstep ih =>
    have htidy := (Declares.extended hsteps h).tidy
    obtain ⟨-, howner, hbody, hcreate⟩ := hstep
    rw [holds_declaring htidy.bounded howner hbody hcreate, ih]
    exact ⟨fun h ↦ h.resolve_right fun h ↦ hbody.ne_declared hs h.2.1, .inl⟩

/-- Declarations are steps of building. -/
theorem Declares.builds (hsteps : Declares first ns ns') : ns.Builds project ns' := by
  refine Relation.ReflTransGen.mono (fun ns ns' hstep ↦ ?_) _ _ hsteps
  obtain ⟨-, howner, hbody, hcreate⟩ := hstep
  exact .declare howner hbody hcreate

/-- Steps that each are declarations and may count on an entity, one after another. -/
theorem Declares.foldl {α : Type} {step : Namespace → α → Namespace}
    (hstep : ∀ (ns : Namespace) (a : α), ns.Tidy → ns.HasEntity owner kind name →
      ns.Declares first (step ns a))
    (h : ns.Tidy) (howner : ns.HasEntity owner kind name) (l : List α) :
    ns.Declares first (l.foldl step ns) := by
  induction l generalizing ns with
  | nil => exact .refl
  | cons a rest ih =>
    have hdeclares := hstep ns a h howner
    have hextended := hdeclares.extended h
    exact hdeclares.trans (ih hextended.tidy (hextended.widens.hasEntity howner))

/-- Changes that do the same to the body of an entity. -/
theorem modify_congr {f g : Body → Body} (h : ∀ e, ns.get? id = some e → f e.body = g e.body) :
    ns.modify id f = ns.modify id g := by
  unfold modify
  cases he : ns.get? id with
  | none => rfl
  | some e => simp only [h e he]

/-- Entering a class into a component, as it is done and as it is described. -/
theorem modify_declaring_class (h : ns.kind? owner = some .component) :
    ns.modify owner (Body.declaring short name id .cls) =
      ns.modify owner (·.mapComponent fun c ↦
        { c with
          classes := c.classes.insert id
          scope := { c.scope with declared := c.scope.declared.insert short name } }) := by
  refine modify_congr fun e he ↦ ?_
  rw [kind?, he] at h
  obtain ⟨_, _, body⟩ := e
  cases body with
  | component c => rfl
  | package | cls | function => cases h

/-- Entering a function into a component, as it is done and as it is described. -/
theorem modify_declaring_function (h : ns.kind? owner = some .component) :
    ns.modify owner (Body.declaring short name id .function) =
      ns.modify owner (·.mapComponent fun c ↦
        { c with
          functions := c.functions.insert id
          scope := { c.scope with declared := c.scope.declared.insert short name } }) := by
  refine modify_congr fun e he ↦ ?_
  rw [kind?, he] at h
  obtain ⟨_, _, body⟩ := e
  cases body with
  | component c => rfl
  | package | cls | function => cases h

/-- Entering a method into a class, as it is done and as it is described. -/
theorem modify_declaring_method (h : ns.kind? owner = some .cls) :
    ns.modify owner (Body.declaring short name id .function) =
      ns.modify owner (·.mapClass fun c ↦
        { c with
          methods := c.methods.insert id
          scope := { c.scope with declared := c.scope.declared.insert short name } }) := by
  refine modify_congr fun e he ↦ ?_
  rw [kind?, he] at h
  obtain ⟨_, _, body⟩ := e
  cases body with
  | cls c => rfl
  | package | component | function => cases h

/-- Entering a method is at most one declaration, made by the class. -/
theorem declares_declareMethod (f : FunctionDecl) (hfirst : first ≤ owner) (h : ns.Tidy)
    (howner : ns.HasEntity owner .cls name) :
    ns.Declares first (ns.declareMethod owner name f) := by
  have ⟨e, he, hkind, hname⟩ := howner
  subst hname
  simp only [declareMethod]
  split
  · exact .refl
  · next id created hcreate =>
    have hbody : Body.Declarable e.kind (functionBody f) := hkind ▸ .method f
    rw [← modify_declaring_method (howner.create h.bounded hcreate).kind?]
    exact .single (.intro hfirst he hbody hcreate)

/-- What one declaration does: nothing if its name is taken; else what it declares gets an entity,
which goes on to declare its methods. -/
theorem declare_cases (d : Declaration) (h : ns.Tidy)
    (howner : ns.HasEntity owner .component name) :
    (ns.lookup (name.child d.name.text)).isSome ∧ ns.declare owner name d = ns ∨
      ∃ id created, ns.create (name.child d.name.text) d.body = some (id, created) ∧
        (created.modify owner (Body.declaring d.name.text (name.child d.name.text) id
          d.body.kind)).Declares id (ns.declare owner name d) := by
  cases d with
  | functionDecl f =>
    simp only [declare]
    split
    · next hcreate => exact .inl ⟨create_eq_none_iff.1 hcreate, rfl⟩
    · next id created hcreate =>
      rw [← modify_declaring_function (howner.create h.bounded hcreate).kind?]
      exact .inr ⟨id, created, hcreate, .refl⟩
  | classDecl className methods =>
    simp only [declare]
    split
    · next hcreate => exact .inl ⟨create_eq_none_iff.1 hcreate, rfl⟩
    · next id created hcreate =>
      rw [← modify_declaring_class (howner.create h.bounded hcreate).kind?]
      refine .inr ⟨id, created, hcreate, ?_⟩
      refine Declares.foldl (fun _ f ↦ declares_declareMethod f (Nat.le_refl id))
        (h.create hcreate).modify ?_ methods
      exact (hasEntity_create hcreate).modify (Body.kind_declaring _ _ _ _)

/-- Entering a class or function is a sequence of declarations, by the module and by the class. -/
theorem declares_declare (d : Declaration) (hfirst : first ≤ owner) (h : ns.Tidy)
    (howner : ns.HasEntity owner .component name) :
    ns.Declares first (ns.declare owner name d) := by
  rcases declare_cases d h howner with ⟨-, hsame⟩ | ⟨id, created, hcreate, hrest⟩
  · rw [hsame]
  · obtain ⟨e, he, hkind, rfl⟩ := howner
    have hbody : Body.Declarable e.kind d.body := hkind ▸ d.declarable_body
    have hid : first ≤ id := by
      rw [(create_eq_some_iff.1 hcreate).2.1]
      exact Nat.le_trans hfirst (Nat.le_of_lt (h.bounded owner (by rw [kind?, he]; rfl)))
    exact .head (.intro hfirst he hbody hcreate) (Declares.mono hrest hid)

/-- Entering the declarations of a module. -/
theorem declares_declareAll (h : ns.Tidy) (hfirst : first ≤ owner)
    (howner : ns.HasEntity owner .component name) (declarations : List Declaration) :
    ns.Declares first (ns.declareAll owner declarations) := by
  have ⟨e, he, _, hname⟩ := howner
  rw [declareAll, he]
  exact Declares.foldl (fun _ d ↦ declares_declare d hfirst) h (hname ▸ howner) declarations

end Namespace

end CodeAtlas
