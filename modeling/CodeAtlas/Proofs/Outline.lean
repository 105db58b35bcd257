import CodeAtlas.Proofs.Building
import CodeAtlas.Proofs.Imports.Frame

/-!
# What passes leave alone

Passes create no entities, remove none, and rename none, and what a scope declares was entered when
it was built. This module says what of a namespace all passes keep.

## Outlines

What all passes keep is the *outline* of a namespace: its table of names and the numbers, names,
kinds and declarations of its entities and what they hold (`SameOutline`). All but the pass that
resolves imports also keep the import tables (`SameScopes`). A change to one body is of the second
kind if the body keeps its kind, its scope and what it holds (`Body.Keeps`); changes to import
tables are of the first (`SameOutline.of_frame`). The kinds of entities, what they hold, and that
the tables are in step are all read off from the outline.

## What is built

Before any pass nothing is resolved (`Sound`): no name is imported, functions declare nothing, and
no component has an export list. This is shown of the bodies that entities start with
(`Body.Unresolved`), and kept by declaring and attaching, so it holds of what is built
(`sound_build`). What is said there of the outline therefore holds after passes.
-/

namespace CodeAtlas

/-! ### Outlines -/

/-- What of an entity only building changes. -/
structure Outline where
  id : Id
  qualName : QualName
  kind : EntityKind
  declared? : Option NameTable
  isDirectory : Bool
  shelf : Shelf → IdSet

/-- The outline of an entity. -/
def Entity.outline (e : Entity) : Outline :=
  ⟨e.id, e.qualName, e.kind, e.body.scope?.map Scope.declared, e.body.isDirectory, e.body.shelf⟩

theorem Entity.outline_withoutImports (e : Entity) : e.withoutImports.outline = e.outline := by
  obtain ⟨_, _, body⟩ := e
  cases body <;> rfl

/-- A change to a body that is seen neither in its outline nor in its scope. -/
structure Body.Keeps (f : Body → Body) : Prop where
  kind : ∀ b, (f b).kind = b.kind
  scope? : ∀ b, (f b).scope? = b.scope?
  isDirectory : ∀ b, (f b).isDirectory = b.isDirectory
  shelf : ∀ b, (f b).shelf = b.shelf

/-- A change to components that is not seen from outside. -/
theorem Body.keeps_mapComponent {f : Component → Component} (hscope : ∀ c, (f c).scope = c.scope)
    (hdirectory : ∀ c, (f c).isDirectory = c.isDirectory)
    (hshelf : ∀ c, (component (f c)).shelf = (component c).shelf) : Keeps (·.mapComponent f) where
  kind b := b.kind_mapComponent f
  scope? b := by
    cases b with
    | component c => exact congrArg some (hscope c)
    | package | cls | function => rfl
  isDirectory b := by
    cases b with
    | component c => exact hdirectory c
    | package | cls | function => rfl
  shelf b := by
    cases b with
    | component c => exact hshelf c
    | package | cls | function => rfl

/-- A change to classes that is not seen from outside. -/
theorem Body.keeps_mapClass {f : Class → Class} (hscope : ∀ c, (f c).scope = c.scope)
    (hmethods : ∀ c, (f c).methods = c.methods) : Keeps (·.mapClass f) where
  kind b := b.kind_mapClass f
  scope? b := by
    cases b with
    | cls c => exact congrArg some (hscope c)
    | package | component | function => rfl
  isDirectory b := by cases b <;> rfl
  shelf b := by
    cases b with
    | cls c =>
      funext s
      cases s with
      | methods => exact hmethods c
      | packages | components | classes | functions => rfl
    | package | component | function => rfl

/-- What a body holds before any pass: it imports nothing, declares nothing if it is a function, and
has no export list and knows none if it is a component. -/
structure Body.Unresolved (b : Body) : Prop where
  imported : ∀ s, b.scope? = some s → s.imported = ∅
  declared : ∀ f, b.function? = some f → f.scope.declared = ∅
  exports : ∀ c, b.component? = some c → c.exports = none ∧ c.exportAliases = ∅

/-- Directories and modules start with nothing resolved. -/
theorem Body.Container.unresolved {b : Body} (h : b.Container) : b.Unresolved := by
  cases h with
  | package => exact ⟨nofun, nofun, nofun⟩
  | component isDirectory =>
    refine ⟨?_, nofun, ?_⟩
    · rintro _ ⟨⟩
      rfl
    · rintro _ ⟨⟩
      exact ⟨rfl, rfl⟩

theorem Body.unresolved_functionBody (f : FunctionDecl) :
    (Namespace.functionBody f).Unresolved := by
  refine ⟨?_, ?_, nofun⟩ <;>
  · rintro _ ⟨⟩
    rfl

/-- What is declared starts with nothing resolved. -/
theorem Body.Declarable.unresolved {kind : EntityKind} {b : Body} (h : Declarable kind b) :
    b.Unresolved := by
  cases h with
  | cls =>
    refine ⟨?_, nofun, nofun⟩
    rintro _ ⟨⟩
    rfl
  | function f | method f => exact unresolved_functionBody f

/-- Declaring something resolves nothing. -/
theorem Body.Unresolved.declaring {b : Body} (h : b.Unresolved) (short : String) (name : QualName)
    (id : Id) (kind : EntityKind) : (b.declaring short name id kind).Unresolved := by
  cases b with
  | package | function => exact h
  | component c =>
    have himported := h.imported c.scope rfl
    have hexports := h.exports c rfl
    cases kind <;>
    · refine ⟨?_, nofun, ?_⟩
      · rintro _ ⟨⟩
        exact himported
      · rintro _ ⟨⟩
        exact hexports
  | cls c =>
    refine ⟨?_, nofun, nofun⟩
    rintro _ ⟨⟩
    exact h.imported c.scope rfl

/-- Attaching something resolves nothing. -/
theorem Body.Unresolved.mapChildren {b : Body} (h : b.Unresolved)
    (f : Containment → Containment) : (b.mapChildren f).Unresolved := by
  cases b with
  | cls | function => exact h
  | package p => exact ⟨nofun, nofun, nofun⟩
  | component c =>
    refine ⟨?_, nofun, ?_⟩
    · rintro _ ⟨⟩
      exact h.imported c.scope rfl
    · rintro _ ⟨⟩
      exact h.exports c rfl

namespace Namespace

variable {ns ns' ns'' : Namespace} {id : Id} {kind : EntityKind} {name : QualName}

/-- The second namespace has the entities of the first, with the same outlines and names, and its
source files. -/
structure SameOutline (ns ns' : Namespace) : Prop where
  outline : ∀ id, (ns'.get? id).map Entity.outline = (ns.get? id).map Entity.outline
  lookup : ∀ q, ns'.lookup q = ns.lookup q
  nextId : ns'.nextId = ns.nextId
  sources : ns'.sources = ns.sources

/-- The second namespace also has the import tables of the first. -/
structure SameScopes (ns ns' : Namespace) : Prop extends SameOutline ns ns' where
  imported : ∀ id name, ns'.imported? id name = ns.imported? id name

theorem SameOutline.trans (h : ns.SameOutline ns') (h' : ns'.SameOutline ns'') :
    ns.SameOutline ns'' where
  outline id := (h'.outline id).trans (h.outline id)
  lookup q := (h'.lookup q).trans (h.lookup q)
  nextId := h'.nextId.trans h.nextId
  sources := h'.sources.trans h.sources

namespace SameScopes

theorem refl (ns : Namespace) : ns.SameScopes ns :=
  ⟨⟨fun _ ↦ rfl, fun _ ↦ rfl, rfl, rfl⟩, fun _ _ ↦ rfl⟩

theorem trans (h : ns.SameScopes ns') (h' : ns'.SameScopes ns'') : ns.SameScopes ns'' where
  toSameOutline := h.toSameOutline.trans h'.toSameOutline
  imported id name := (h'.imported id name).trans (h.imported id name)

/-- Steps that keep the scopes of the namespace in a state do so one after another. -/
theorem foldl {σ α : Type} (read : σ → Namespace) {step : σ → α → σ} {s : σ}
    (h : ns.SameScopes (read s)) (hstep : ∀ s a, (read s).SameScopes (read (step s a)))
    (l : List α) : ns.SameScopes (read (l.foldl step s)) := by
  induction l generalizing s with
  | nil => exact h
  | cons a rest ih => exact ih (h.trans (hstep s a))

/-- A change that is not seen from outside keeps scopes. -/
theorem modify {f : Body → Body} (h : ns.SameScopes ns') (hf : Body.Keeps f) :
    ns.SameScopes (ns'.modify id f) := by
  refine h.trans ⟨⟨fun i ↦ ?_, fun q ↦ lookup_modify, nextId_modify, sources_modify⟩,
    fun i name ↦ ?_⟩
  · rw [get?_modify]
    split
    · next hi =>
      subst hi
      rw [Option.map_map]
      refine congrArg (Option.map · _) (funext fun e ↦ ?_)
      show Outline.mk _ _ (f e.body).kind ((f e.body).scope?.map _) _ _ = _
      rw [hf.kind, hf.scope?, hf.isDirectory, hf.shelf]
      rfl
    · rfl
  · unfold Namespace.imported? scope?
    rw [get?_modify]
    split
    · next hi =>
      subst hi
      cases ns'.get? i with
      | none => rfl
      | some e =>
        show (f e.body).scope?.bind _ = e.body.scope?.bind _
        rw [hf.scope?]
    · rfl

end SameScopes

namespace SameOutline

/-- Namespaces with the same frame have the same outline. -/
theorem of_frame (h : ns'.withoutImports = ns.withoutImports) : ns.SameOutline ns' := by
  have houtline : ∀ (ns : Namespace) (id : Id),
      (ns.withoutImports.get? id).map Entity.outline = (ns.get? id).map Entity.outline := by
    intro ns id
    rw [get?_withoutImports, Option.map_map]
    exact congrArg (Option.map · _) (funext Entity.outline_withoutImports)
  refine ⟨fun id ↦ ?_, fun q ↦ ?_, ?_, ?_⟩
  · rw [← houtline, h, houtline]
  · rw [← lookup_withoutImports, h, lookup_withoutImports]
  · show ns'.withoutImports.nextId = ns.withoutImports.nextId
    rw [h]
  · rw [← sources_withoutImports, h, sources_withoutImports]

/-- Having the same outline is symmetric. -/
theorem symm (h : ns.SameOutline ns') : ns'.SameOutline ns where
  outline id := (h.outline id).symm
  lookup q := (h.lookup q).symm
  nextId := h.nextId.symm
  sources := h.sources.symm

/-! ### What is read off the outline -/

/-- An entity of the first namespace has its counterpart in the second. -/
theorem exists_get? (h : ns.SameOutline ns') {e : Entity} (he : ns.get? id = some e) :
    ∃ e', ns'.get? id = some e' ∧ e'.outline = e.outline := by
  have houtline := h.outline id
  rw [he, Option.map_some] at houtline
  exact Option.map_eq_some_iff.1 houtline

/-- Entities have the same kinds in namespaces with the same outline. -/
theorem kind? (h : ns.SameOutline ns') (id : Id) : ns'.kind? id = ns.kind? id := by
  have hkind := congrArg (Option.map Outline.kind) (h.outline id)
  rw [Option.map_map, Option.map_map] at hkind
  exact hkind

/-- Entities hold the same in namespaces with the same outline. -/
theorem holds (h : ns.SameOutline ns') {owner i : Id} {s : Shelf} :
    ns'.Holds owner s i ↔ ns.Holds owner s i := by
  have himp : ∀ {ns ns' : Namespace}, ns.SameOutline ns' → ns.Holds owner s i →
      ns'.Holds owner s i := by
    rintro ns ns' h ⟨e, he, hi⟩
    obtain ⟨e', he', houtline⟩ := h.exists_get? he
    have hshelf : e'.body.shelf = e.body.shelf := congrArg Outline.shelf houtline
    exact ⟨e', he', hshelf ▸ hi⟩
  exact ⟨himp h.symm, himp h⟩

theorem hasEntity (h : ns.SameOutline ns') (hid : ns.HasEntity id kind name) :
    ns'.HasEntity id kind name := by
  obtain ⟨e, he, rfl, rfl⟩ := hid
  obtain ⟨e', he', houtline⟩ := h.exists_get? he
  exact ⟨e', he', congrArg Outline.kind houtline, congrArg Outline.qualName houtline⟩

/-- Whether the two tables are in step is seen in outlines. -/
theorem tidy (h : ns.SameOutline ns') (htidy : ns.Tidy) : ns'.Tidy := by
  refine ⟨⟨fun q id hq ↦ ?_, fun id e' he' ↦ ?_⟩, fun id hid ↦ ?_, fun id e' he' ↦ ?_⟩
  · rw [h.lookup] at hq
    obtain ⟨e, he, hname⟩ := htidy.exists_of_lookup q id hq
    obtain ⟨e', he', houtline⟩ := h.exists_get? he
    exact ⟨e', he', (congrArg Outline.qualName houtline).trans hname⟩
  · obtain ⟨e, he, houtline⟩ := h.symm.exists_get? he'
    have hname : e.qualName = e'.qualName := congrArg Outline.qualName houtline
    rw [h.lookup, ← hname]
    exact htidy.lookup_of_get? id e he
  · rw [h.kind?] at hid
    rw [h.nextId]
    exact htidy.bounded id hid
  · obtain ⟨e, he, houtline⟩ := h.symm.exists_get? he'
    have hid : e.id = e'.id := congrArg Outline.id houtline
    rw [← hid]
    exact htidy.id_eq id e he

end SameOutline

/-! ### What is built -/

/-- No name is imported anywhere. -/
def NoImports (ns : Namespace) : Prop :=
  ∀ id name, ns.imported? id name = none

/-- Functions declare nothing. -/
def BareFunctions (ns : Namespace) : Prop :=
  ∀ id f, ((ns.get? id).bind fun e ↦ e.body.function?) = some f → f.scope.declared = ∅

/-- No component has an export list yet, or knows one of another. -/
def NoExports (ns : Namespace) : Prop :=
  ∀ id c, ns.component? id = some c → c.exports = none ∧ c.exportAliases = ∅

theorem SameScopes.noImports (h : ns.SameScopes ns') (hns : ns.NoImports) : ns'.NoImports :=
  fun id name ↦ (h.imported id name).trans (hns id name)

/-- Whether functions declare something is seen in outlines. -/
theorem SameOutline.bareFunctions (h : ns.SameOutline ns') (hns : ns.BareFunctions) :
    ns'.BareFunctions := by
  intro id f hf
  obtain ⟨⟨_, _, body'⟩, he', hbody'⟩ := Option.bind_eq_some_iff.1 hf
  obtain ⟨⟨_, _, body⟩, he, houtline⟩ := h.symm.exists_get? he'
  cases body' with
  | package | component | cls => cases hbody'
  | function f' =>
    cases hbody'
    have hkind : body.kind = .function := congrArg Outline.kind houtline
    have hdeclared : body.scope?.map Scope.declared = some f.scope.declared :=
      congrArg Outline.declared? houtline
    cases body with
    | package | component | cls => cases hkind
    | function g =>
      rw [← Option.some.inj hdeclared]
      exact hns id g (by rw [he]; rfl)

theorem SameOutline.sourcesLive (h : ns.SameOutline ns') (hns : ns.SourcesLive) :
    ns'.SourcesLive :=
  fun f hf ↦ (h.kind? f.component).trans (hns f (h.sources ▸ hf))

/-- What is built is in order, its source files are those of components, and nothing in it is
resolved. -/
structure Sound (ns : Namespace) : Prop extends Tidy ns where
  sourcesLive : ns.SourcesLive
  noImports : ns.NoImports
  bareFunctions : ns.BareFunctions
  noExports : ns.NoExports

/-- **What is built.** Source files are those of components that are there, and nothing is resolved
yet. -/
theorem sound_build {project : Project} (h : project.build = .ok ns) : ns.Sound := by
  have hempty : SourcesLive { project := project.name } := fun f hf ↦ absurd hf List.not_mem_nil
  obtain ⟨htidy, hlive⟩ := (builds_build h).tidy_sourcesLive (tidy_empty project.name) hempty
  have hbody : ∀ id e, ns.get? id = some e → e.body.Unresolved :=
    forall_body_of_build h (fun _ ↦ Body.Container.unresolved)
      (fun _ _ ↦ Body.Declarable.unresolved)
      (fun short name id kind _ hb ↦ hb.declaring short name id kind)
      (fun f _ hb ↦ hb.mapChildren f)
  refine ⟨htidy, hlive, fun id name ↦ ?_, fun id f hf ↦ ?_, fun id c hc ↦ ?_⟩
  · cases hs : ns.scope? id with
    | none => rw [imported?, hs, Option.bind_none]
    | some s =>
      obtain ⟨e, he, hscope⟩ := Option.bind_eq_some_iff.1 hs
      rw [imported?, hs, Option.bind_some, (hbody id e he).imported s hscope]
      exact Std.ExtTreeMap.getElem?_empty
  · obtain ⟨e, he, hfunction⟩ := Option.bind_eq_some_iff.1 hf
    exact (hbody id e he).declared f hfunction
  · obtain ⟨e, he, hcomponent⟩ := Option.bind_eq_some_iff.1 hc
    exact (hbody id e he).exports c hcomponent

end Namespace

end CodeAtlas
