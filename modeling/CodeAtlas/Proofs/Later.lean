import CodeAtlas.Proofs.Condense
import CodeAtlas.Proofs.Passes

/-!
# After building

Once a namespace is built, passes over files and condensing make others of it (`Namespace.Later`).
Passes may be run over any file, once or again, in any order, and with any count; what is said of
all later namespaces is therefore also said of those between two files of a traversal.

## What they have in common

All of these have the outline of the one that was built (`Later.sameOutline`), so that the same
definitions are entered (`SameOutline.childScope_eq`). Whole runs lead from a later namespace to a
later one (`Later.runsStay`).

## What look-ups read

Most passes also keep the scopes, and then every name is looked up as before, whatever relations
were added (`SameScopes.resolve_eq`). To see this, all that a look-up reads of an entity is put into
one view, its name and its scope (`named?`), and each function that is used in a look-up is shown to
read nothing else.
-/

namespace CodeAtlas

namespace Namespace

variable {built ns ns' : Namespace}

/-! ### What look-ups read -/

/-- What a look-up reads of an entity. -/
def named? (ns : Namespace) (id : Id) : Option (QualName × Option Scope) :=
  (ns.get? id).map fun e ↦ (e.qualName, e.body.scope?)

theorem scope?_eq_named? : ns.scope? = fun id ↦ (ns.named? id).bind Prod.snd := by
  funext id
  rw [scope?, named?, Option.bind_map]
  rfl

theorem parent?_eq_named? :
    ns.parent? = fun id ↦ (ns.named? id).bind fun n ↦ n.1.parent.bind ns.lookup := by
  funext id
  rw [named?, Option.bind_map]
  rfl

theorem depth_eq_named? : ns.depth = fun id ↦ ((ns.named? id).map fun n ↦ n.1.depth).getD 0 := by
  funext id
  rw [named?, Option.map_map]
  rfl

/-- Members are read off names and scopes. -/
theorem member_eq_named? : ns.member = fun owner name ↦ (ns.named? owner).bind fun n ↦
    match n.2.bind (·.find? name) with
    | some target => ns.lookup target
    | none => ns.lookup (n.1.child name) := by
  funext owner name
  rw [named?, Option.bind_map]
  rfl

section Congr

variable (hnamed : ns'.named? = ns.named?) (hlookup : ns'.lookup = ns.lookup)

include hnamed hlookup

/-- What is around an entity depends on the names of entities. -/
theorem ancestors_congr : ns'.ancestors = ns.ancestors := by
  have hparent : ns'.parent? = ns.parent? := by
    rw [parent?_eq_named?, hnamed, hlookup, parent?_eq_named?]
  have hclimb : ∀ levels id, ns'.climb levels id = ns.climb levels id := by
    intro levels
    induction levels with
    | zero => exact fun _ ↦ rfl
    | succ levels ih =>
      intro id
      simp only [climb, hparent, ih]
  funext id
  rw [ancestors, ancestors, hclimb, depth_eq_named?, hnamed, ← depth_eq_named?]

/-- How names are resolved depends on the names of entities and on their scopes. -/
theorem resolve_congr : ns'.resolve = ns.resolve := by
  have hscope : ns'.scope? = ns.scope? := by
    rw [scope?_eq_named?, hnamed, ← scope?_eq_named?]
  have hresolve : ns'.resolveName = ns.resolveName := by
    funext fromId name
    rw [resolveName, resolveName, binding?, binding?, ancestors_congr hnamed hlookup, hscope,
      hlookup]
  have hmember : ns'.member = ns.member := by
    rw [member_eq_named?, hnamed, hlookup, ← member_eq_named?]
  funext fromId name
  simp only [resolve, members, hresolve, hmember]

end Congr

/-- Outlines show what a scope declares. -/
theorem SameOutline.declared_eq (h : ns.SameOutline ns') (id : Id) :
    (ns'.scope? id).map Scope.declared = (ns.scope? id).map Scope.declared := by
  have houtline := congrArg (fun o ↦ o.bind Outline.declared?) (h.outline id)
  simp only [Option.bind_map] at houtline
  rw [scope?, scope?, Option.map_bind, Option.map_bind]
  exact houtline

/-- Outlines show which definitions are entered. -/
theorem SameOutline.childScope_eq (h : ns.SameOutline ns') (s : ScopeStack) :
    s.childScope ns' = s.childScope ns := by
  funext name
  have hdeclared := h.declared_eq s.current
  simp only [ScopeStack.childScope, h.kind?, h.lookup]
  cases hs : ns.scope? s.current with
  | none =>
    rw [hs] at hdeclared
    rw [Option.map_eq_none_iff.1 hdeclared]
  | some scope =>
    rw [hs] at hdeclared
    obtain ⟨scope', hs', heq⟩ := Option.map_eq_some_iff.1 hdeclared
    simp only [hs', Option.bind_eq_bind, Option.bind_some, heq]

namespace SameScopes

variable (h : ns.SameScopes ns')

include h

theorem lookup_eq : ns'.lookup = ns.lookup :=
  funext h.lookup

theorem kind?_eq : ns'.kind? = ns.kind? :=
  funext h.kind?

theorem scope?_eq : ns'.scope? = ns.scope? := by
  funext id
  have hdeclared := h.declared_eq id
  cases hs : ns.scope? id with
  | none =>
    rw [hs] at hdeclared
    exact Option.map_eq_none_iff.1 hdeclared
  | some s =>
    rw [hs] at hdeclared
    obtain ⟨s', hs', heq⟩ := Option.map_eq_some_iff.1 hdeclared
    rw [hs']
    refine congrArg some (Scope.ext_imported ?_ fun name ↦ ?_)
    · rw [heq]
    · have himported := h.imported id name
      rwa [imported?, hs', imported?, hs] at himported

theorem named?_eq : ns'.named? = ns.named? := by
  funext id
  have hscope := congrFun h.scope?_eq id
  cases he : ns.get? id with
  | none =>
    have houtline := h.outline id
    rw [he] at houtline
    rw [named?, named?, he, Option.map_eq_none_iff.1 houtline]
  | some e =>
    obtain ⟨e', he', houtline⟩ := h.exists_get? he
    have hname : e'.qualName = e.qualName := congrArg Outline.qualName houtline
    rw [scope?, scope?, he, he'] at hscope
    rw [named?, named?, he, he', Option.map_some, Option.map_some, hname]
    exact congrArg (fun s ↦ some (e.qualName, s)) hscope

/-- Names are resolved alike in namespaces with the same scopes. -/
theorem resolve_eq : ns'.resolve = ns.resolve :=
  resolve_congr h.named?_eq h.lookup_eq

end SameScopes

/-! ### Condensing -/

/-- Condensing keeps the scopes. -/
theorem sameScopes_condense (ns : Namespace) : ns.SameScopes ns.condense := by
  have hget : ∀ {α : Type} (f : Entity → α), (∀ e, f e.withoutRelations = f e) → ∀ id,
      (ns.condense.get? id).map f = (ns.get? id).map f := by
    intro α f hf id
    have hread : ∀ ns : Namespace, (ns.withoutRelations.get? id).map f = (ns.get? id).map f := by
      intro ns
      rw [get?_withoutRelations, Option.map_map]
      exact congrArg (Option.map · _) (funext hf)
    rw [← hread, withoutRelations_condense, hread]
  refine ⟨⟨hget Entity.outline ?_, fun q ↦ ?_, ?_, ?_⟩, fun id name ↦ ?_⟩
  · rintro ⟨_, _, body⟩
    cases body <;> rfl
  · show ns.condense.withoutRelations.lookup q = ns.withoutRelations.lookup q
    rw [withoutRelations_condense]
  · show ns.condense.withoutRelations.nextId = ns.withoutRelations.nextId
    rw [withoutRelations_condense]
  · show ns.condense.withoutRelations.sources = ns.withoutRelations.sources
    rw [withoutRelations_condense]
  · have hnamed : ns.condense.named? = ns.named? := by
      refine funext (hget _ ?_)
      rintro ⟨_, _, body⟩
      cases body <;> rfl
    rw [imported?, imported?, scope?_eq_named?, hnamed, ← scope?_eq_named?]

/-! ### All that comes after -/

/-- What passes over files, and condensing, make of a namespace. -/
inductive Later (built : Namespace) : Namespace → Prop
  | refl : Later built built
  | repeated {p : Progress} (h : Later built p.ns) (r : Repeated) (component : Id)
      (file : List Stmt) : Later built (r.pass component file p).ns
  | relating {p : Progress} (h : Later built p.ns) (r : Relating) (component : Id)
      (file : List Stmt) : Later built (r.pass component file p).ns
  | condense {ns : Namespace} (h : Later built ns) : Later built ns.condense

namespace Later

/-- All that comes after building has the outline of what was built. -/
theorem sameOutline (h : built.Later ns) : built.SameOutline ns := by
  induction h with
  | refl => exact (SameScopes.refl built).toSameOutline
  | @repeated p _ r component file ih => exact ih.trans (r.sameOutline_pass component file p)
  | @relating p _ r component file ih =>
    exact ih.trans (r.sameScopes_pass component file p).toSameOutline
  | @condense ns _ ih => exact ih.trans (sameScopes_condense ns).toSameOutline

/-- A run over all files is one over file after file. -/
theorem runsStay (h : built.Later ns) (project : Project) : project.RunsStay built.Later ns :=
  Project.runsStay (fun r component file _ hp ↦ hp.repeated r component file)
    (fun r component file _ hp ↦ hp.relating r component file) project h

end Later

end Namespace

end CodeAtlas
