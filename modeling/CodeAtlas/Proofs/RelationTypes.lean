import CodeAtlas.Proofs.Findings

/-!
# Between which entities there are relations

A set of relations tells relations apart by their ends, not by their kinds, so one of a kind may be
absorbed by one of another. What is said of the relations of an analysis is therefore said of what
the passes find, of which the sets keep some.

## Findings

Every finding is of the right kind for its ends in the namespace that the passes start with
(`Finding.Shown.dependency_typed`, `Finding.Shown.association_typed`), whatever is called from
whatever scope. A use is a call of what is no class, or the instantiation of a class that declares
no constructor (`Calls.target_typed`); an association is one of a class with a class
(`Attributes.exists_of_infer`).

## The analysis

Kinds and scopes do not change from there on (`SameScopes.dependencyTyped`), and condensed relations
are between siblings by their construction (`Namespace.Consistent.siblings_of_condensed`). So
`relations_fit_ends` speaks of the relations at the end of an analysis and of the entities as they
are there.
-/

namespace CodeAtlas

namespace Namespace

variable {ns ns' : Namespace} {r : Relation}

/-- A relation of weight zero between entities that are there. -/
structure Links (ns : Namespace) (r : Relation) : Prop where
  source : (ns.kind? r.source).isSome
  target : (ns.kind? r.target).isSome
  weight : r.weight = 0

/-- A use by a component, a class or a function: a call, which is not one of a class, or the
instantiation of a class that declares no constructor. -/
def Uses (ns : Namespace) (r : Relation) : Prop :=
  ns.kind? r.source ∈ [some .component, some .cls, some .function] ∧
    (r.kind = .dependency .uses (some .calls) ∧ ns.kind? r.target ≠ some .cls ∨
      r.kind = .dependency .uses (some .instantiates) ∧ ns.kind? r.target = some .cls ∧
        ∃ s, ns.scope? r.target = some s ∧ s.declared[Calls.constructorName]? = none)

/-- A refinement or a use, between entities that are there. -/
def DependencyTyped (ns : Namespace) (r : Relation) : Prop :=
  ns.Links r ∧ ((∃ stereotype, r.kind = .dependency .refines (some stereotype)) ∨ ns.Uses r)

/-- An aggregation of a class with a class. -/
def AssociationTyped (ns : Namespace) (r : Relation) : Prop :=
  r.weight = 0 ∧ r.kind = .association .aggregation ∧
    ns.kind? r.source = some .cls ∧ ns.kind? r.target = some .cls

/-- Whether a relation is between entities that are there is seen in scopes. -/
theorem SameScopes.links (h : ns.SameScopes ns') (hr : ns.Links r) : ns'.Links r := by
  refine ⟨?_, ?_, hr.weight⟩
  · rw [h.kind?]
    exact hr.source
  · rw [h.kind?]
    exact hr.target

/-- Whether a dependency fits its ends is seen in scopes. -/
theorem SameScopes.dependencyTyped (h : ns.SameScopes ns') (hr : ns.DependencyTyped r) :
    ns'.DependencyTyped r := by
  refine ⟨h.links hr.1, ?_⟩
  rw [Uses, h.kind?_eq, h.scope?_eq]
  exact hr.2

/-- Whether an association fits its ends is seen in scopes. -/
theorem SameScopes.associationTyped (h : ns.SameScopes ns') (hr : ns.AssociationTyped r) :
    ns'.AssociationTyped r := by
  rw [AssociationTyped, h.kind?_eq]
  exact hr

end Namespace

/-! ### Ends -/

section Ends

variable {ns : Namespace} {m current : Id} {s : ScopeStack}

/-- Files have scopes that are components, classes and functions. -/
theorem ScopeStack.Own.kind?_current (h : s.Own ns m) (hm : ns.kind? m = some .component) :
    ns.kind? s.current ∈ [some .component, some .cls, some .function] := by
  have hkind : ns.kind? s.current = some .component ∨ ns.kind? s.current = some .cls ∨
      ns.kind? s.current = some .function := by
    cases h with
    | module => exact .inl hm
    | cls h => exact .inr (.inl h.kind?_of_classes)
    | function h => exact .inr (.inr (h.kind?_of_functions (.inl rfl)))
    | method _ h => exact .inr (.inr (h.kind?_of_functions (.inr rfl)))
  simpa using hkind

/-- What a call uses is there. It is called and no class, or instantiated and a class without a
constructor. -/
theorem Calls.target_typed (hns : ns.Named) {callee : Expr} {used : Id × Stereotype}
    (h : target ns current callee = some used) :
    (ns.kind? used.1).isSome ∧
      (used.2 = .calls ∧ ns.kind? used.1 ≠ some .cls ∨
        used.2 = .instantiates ∧ ns.kind? used.1 = some .cls ∧
          ∃ s, ns.scope? used.1 = some s ∧ s.declared[constructorName]? = none) := by
  simp only [target, Option.bind_eq_bind, Option.bind_eq_some_iff] at h
  obtain ⟨name, -, id, -, hused⟩ := h
  obtain ⟨e, he, -⟩ := Option.bind_eq_some_iff.1 hused
  have hkind : ns.kind? id = some e.kind := by
    rw [Namespace.kind?, he]
    rfl
  obtain ⟨_, name, body⟩ := e
  cases body with
  | package | component | function =>
    rw [Calls.used, he] at hused
    cases hused
    rw [hkind]
    exact ⟨rfl, .inl ⟨rfl, by simp [Entity.kind, Body.kind]⟩⟩
  | cls c =>
    -- a class that declares a constructor stands for the constructor
    cases hinit : c.scope.declared[constructorName]? with
    | some init =>
      obtain ⟨-, target, htarget, hconstructor⟩ := hns.used_constructor he rfl hinit
      cases hused.symm.trans hconstructor
      rw [htarget.kind?]
      exact ⟨rfl, .inl ⟨rfl, by decide⟩⟩
    | none =>
      simp only [Calls.used, he, Option.bind_eq_bind, Option.bind_some, hinit,
        Option.some.injEq] at hused
      cases hused
      rw [hkind]
      refine ⟨rfl, .inr ⟨rfl, rfl, c.scope, ?_, hinit⟩⟩
      rw [Namespace.scope?, he]
      rfl

/-- A label that names a class names one that is there, by its short name. -/
theorem Attributes.exists_of_infer (hns : ns.Tidy) {value : Expr} {part : Id} {text : String}
    (h : infer ns current value = .cls part text) :
    ∃ e, ns.get? part = some e ∧ e.kind = .cls ∧ e.name = text := by
  unfold infer at h
  split at h
  · split at h
    · next id qualName c hget =>
      cases h
      obtain ⟨i, -, he⟩ := Option.bind_eq_some_iff.1 hget
      obtain rfl : part = i := hns.id_eq i _ he
      exact ⟨_, he, rfl, rfl⟩
    · split at h <;> cases h
  · split at h <;> cases h

theorem Attributes.kind?_of_infer (hns : ns.Tidy) {value : Expr} {part : Id} {text : String}
    (h : infer ns current value = .cls part text) : ns.kind? part = some .cls := by
  obtain ⟨e, he, hkind, -⟩ := exists_of_infer hns h
  rw [Namespace.kind?, he, Option.map_some, hkind]

end Ends

/-! ### Findings -/

namespace Finding.Shown

variable {ns : Namespace} {m : Id} {f : Finding} {r : Relation}

/-- What a file shows as a dependency is one by the kinds of its ends. -/
theorem dependency_typed (h : f.Shown ns m) (hns : ns.Named) (hm : ns.kind? m = some .component)
    (hr : f.relation? = some r) : ns.DependencyTyped r := by
  cases h with
  | member => cases hr
  | @refines source target stereotype hsource htarget =>
    cases hr
    have hlive : (ns.kind? source).isSome := by
      rcases hsource with hsource | hsource
      · rw [hsource.kind?_of_classes]
        rfl
      · rw [hsource.kind?_of_functions (.inl rfl)]
        rfl
    refine ⟨⟨hlive, ?_, rfl⟩, .inl ⟨stereotype, rfl⟩⟩
    show (ns.kind? target).isSome
    rw [htarget]
    rfl
  | @uses s callee used hown hused =>
    cases hr
    have hsource := hown.kind?_current hm
    obtain ⟨htarget, hkind⟩ := Calls.target_typed hns hused
    refine ⟨⟨?_, htarget, rfl⟩, .inr ⟨hsource, hkind.imp ?_ ?_⟩⟩
    · show (ns.kind? s.current).isSome
      revert hsource
      cases ns.kind? s.current <;> simp
    · exact And.imp_left fun h ↦ congrArg (fun st ↦ RelationKind.dependency .uses (some st)) h
    · exact And.imp_left fun h ↦ congrArg (fun st ↦ RelationKind.dependency .uses (some st)) h

/-- What a file shows as an association is one by the kinds of its ends. -/
theorem association_typed (h : f.Shown ns m) (hns : ns.Tidy) (hr : f.association? = some r) :
    ns.AssociationTyped r := by
  cases h with
  | @member owner current value name howner =>
    cases hlabel : Attributes.infer ns current value with
    | cls part text =>
      rw [hlabel] at hr
      cases hr
      exact ⟨rfl, rfl, Attributes.kind?_of_infer hns hlabel, howner.kind?_of_classes⟩
    | primitive | unknown =>
      rw [hlabel] at hr
      cases hr
  | refines | uses => cases hr

end Finding.Shown

/-! ### The analysis -/

section Analysis

variable {project : Project} {built ns called : Namespace} {a : Analysis} {r : Relation}

/-- Passes over source files add relations of the right kinds to none. -/
theorem Project.Imported.typed_of_relate (h : project.Imported built ns) {schedule : Schedule}
    (hfiles : ∀ turn ∈ schedule, ∀ f ∈ turn.2, f ∈ ns.sources)
    (hrelate : project.relate schedule ns = .ok called) :
    (∀ r ∈ called.dependencies.toList, ns.DependencyTyped r) ∧
      (∀ r ∈ called.associations.toList, ns.AssociationTyped r) ∧ called.condensed = ∅ ∧
      ns.SameScopes called := by
  have ⟨hdependencies, hassociations, hcondensed⟩ :
      ns.dependencies = ∅ ∧ ns.associations = ∅ ∧ ns.condensed = ∅ := by
    simpa [Namespace.relationSets] using h.relationSets
  rw [Project.relate_eq fun turn hturn f hf ↦ h.readable f (hfiles turn hturn f hf)] at hrelate
  cases hrelate
  have hframe := Finding.withoutFindings_foldl_add ns (project.foundOn ns schedule)
  refine ⟨fun r hr ↦ ?_, fun r hr ↦ ?_, ?_, Namespace.sameScopes_of_withoutFindings hframe⟩
  · rw [Finding.foldl_add, hdependencies] at hr
    have hr := (RelationSet.mem_of_mem_foldl_insert hr).resolve_left List.not_mem_nil
    obtain ⟨f, hf, hr⟩ := List.mem_filterMap.1 hr
    obtain ⟨m, hm, hshown⟩ := h.shown_of_mem_foundOn hfiles hf
    exact hshown.dependency_typed h.reaches.named hm hr
  · rw [Finding.foldl_add, hassociations] at hr
    have hr := (RelationSet.mem_of_mem_foldl_insert hr).resolve_left List.not_mem_nil
    obtain ⟨f, hf, hr⟩ := List.mem_filterMap.1 hr
    obtain ⟨m, -, hshown⟩ := h.shown_of_mem_foundOn hfiles hf
    exact hshown.association_typed h.housed.toTidy hr
  · rw [Finding.foldl_add]
    exact hcondensed

/-- What is condensed from nothing are plain uses between siblings that are there. -/
theorem Namespace.Consistent.siblings_of_condensed (h : ns.Consistent) (hnone : ns.condensed = ∅)
    (hr : r ∈ ns.condense.condensed.toList) :
    r.weight = 0 ∧ r.kind = .dependency .uses none ∧ r.source ≠ r.target ∧
      ∃ parent, ns.parent? r.source = some parent ∧ ns.parent? r.target = some parent := by
  rw [Namespace.condense_eq_foldl, Namespace.condensed_foldl, hnone] at hr
  have hr := (RelationSet.mem_of_mem_foldl_insert hr).resolve_left List.not_mem_nil
  obtain ⟨l, hl, rfl⟩ := List.mem_map.1 hr
  obtain ⟨_, -, hlifts⟩ := h.mem_lifted_iff.1 hl
  exact ⟨rfl, rfl, hlifts.ne, l.parent, hlifts.source_parent, hlifts.target_parent⟩

theorem Namespace.isSome_kind?_of_parent? {id parent : Id} (h : ns.parent? id = some parent) :
    (ns.kind? id).isSome := by
  obtain ⟨e, he, -⟩ := Namespace.parent?_eq_some_iff.1 h
  rw [Namespace.kind?, he]
  rfl

/-- **Relations fit their ends.** After an analysis all relations are of weight zero and between
entities that are there. A dependency is a refinement or a use, and a use is one by a component, a
class or a function: a call of what is no class, or the instantiation of a class that declares no
constructor. Associations are aggregations of classes with classes. Condensed relations are plain
uses between different entities with the same parent. -/
theorem relations_fit_ends (h : project.analyze = .ok a) :
    (∀ r ∈ a.ns.relations, a.ns.Links r) ∧
    (∀ r ∈ a.ns.dependencies.toList,
      (∃ stereotype, r.kind = .dependency .refines (some stereotype)) ∨ a.ns.Uses r) ∧
    (∀ r ∈ a.ns.associations.toList, r.kind = .association .aggregation ∧
      a.ns.kind? r.source = some .cls ∧ a.ns.kind? r.target = some .cls) ∧
    ∀ r ∈ a.ns.condensed.toList, r.kind = .dependency .uses none ∧ r.source ≠ r.target ∧
      ∃ parent, a.ns.parent? r.source = some parent ∧ a.ns.parent? r.target = some parent := by
  obtain ⟨built, ns, called, himported, hrelate, hns⟩ := Project.exists_relate h
  have hsources : ∀ turn ∈ Project.scheduleOf ns, ∀ f ∈ turn.2, f ∈ ns.sources := by
    simp [Project.scheduleOf]
  obtain ⟨hdependencies, hassociations, hnone, hcalled⟩ :=
    himported.typed_of_relate hsources hrelate
  -- kinds and scopes are those of the namespace that the passes start with
  have hcondense := Namespace.sameScopes_condense called
  have hsame : ns.SameScopes a.ns := hns ▸ hcalled.trans hcondense
  have hsets : a.ns.dependencies = called.dependencies ∧ a.ns.associations = called.associations :=
    hns ▸ ⟨called.dependencies_condense, called.associations_condense⟩
  have hdependency : ∀ r ∈ a.ns.dependencies.toList, a.ns.DependencyTyped r := fun r hr ↦
    hsame.dependencyTyped (hdependencies r (hsets.1 ▸ hr))
  have hassociation : ∀ r ∈ a.ns.associations.toList, a.ns.AssociationTyped r := fun r hr ↦
    hsame.associationTyped (hassociations r (hsets.2 ▸ hr))
  have hcondensed : ∀ r ∈ a.ns.condensed.toList, r.weight = 0 ∧ r.kind = .dependency .uses none ∧
      r.source ≠ r.target ∧
        ∃ parent, a.ns.parent? r.source = some parent ∧ a.ns.parent? r.target = some parent := by
    intro r hr
    rw [hns] at hr ⊢
    have hconsistent := (hcalled.tidy himported.housed.toTidy).toConsistent
    simp only [hcondense.parent?]
    exact hconsistent.siblings_of_condensed hnone hr
  refine ⟨fun r hr ↦ ?_, fun r hr ↦ (hdependency r hr).2, fun r hr ↦ (hassociation r hr).2,
    fun r hr ↦ (hcondensed r hr).2⟩
  rw [Namespace.relations, List.mem_append, List.mem_append] at hr
  rcases hr with (hr | hr) | hr
  · exact (hdependency r hr).1
  · obtain ⟨hweight, -, hsource, htarget⟩ := hassociation r hr
    exact ⟨by rw [hsource]; rfl, by rw [htarget]; rfl, hweight⟩
  · obtain ⟨hweight, -, -, parent, hsource, htarget⟩ := hcondensed r hr
    exact ⟨Namespace.isSome_kind?_of_parent? hsource, Namespace.isSome_kind?_of_parent? htarget,
      hweight⟩

/-- A module with a class that is instantiated, a class that has a constructor, and a function that
calls the latter. -/
def constructingProject : Project where
  name := "p"
  location := "p"
  entries := [
    .file markerName "class N:0\nclass W:\n def __init__(t):\n  t.y=N()\ndef u():W()\n".toUTF8]
  filter := []

/-- There is an instantiation, a call of a constructor, and an association of two classes. -/
theorem relations_of_constructingProject : ∃ a, constructingProject.analyze = .ok a ∧
    a.ns.dependencies.toList.map (·.kind) =
      [.dependency .uses (some .instantiates), .dependency .uses (some .calls)] ∧
    a.ns.associations.size = 1 ∧ a.ns.condensed.size = 3 ∧
    (∀ r ∈ a.ns.relations, a.ns.Links r) ∧
    ∀ r ∈ a.ns.associations.toList, r.kind = .association .aggregation ∧
      a.ns.kind? r.source = some .cls ∧ a.ns.kind? r.target = some .cls := by
  have hanalyze : (constructingProject.analyzeOnce?.map fun ns ↦
      (ns.dependencies.toList.map (·.kind), ns.associations.size, ns.condensed.size)) =
      some ([.dependency .uses (some .instantiates), .dependency .uses (some .calls)], 1, 3) := by
    decide +kernel
  obtain ⟨a, ha, hread⟩ := Project.exists_analyze_of_analyzeOnce? hanalyze
  simp only [Prod.mk.injEq] at hread
  obtain ⟨hdependencies, hassociations, hcondensed⟩ := hread
  obtain ⟨hlinks, -, haggregations, -⟩ := relations_fit_ends ha
  exact ⟨a, ha, hdependencies, hassociations, hcondensed, hlinks, haggregations⟩

end Analysis

end CodeAtlas
