import CodeAtlas.Proofs.Later
import CodeAtlas.Proofs.LiveNames
import CodeAtlas.Proofs.Settling
import CodeAtlas.Proofs.Turns

/-!
# Between which entities there is refinement

A class definition in a module refines the classes that its bases name. This module says which
refinements an analysis finds, and between entities of which kinds.

## What the pass records

The one pass that looks for refinement reads scopes, which it does not change, so what it records is
told from the namespace it starts with (`Inheritance.ns_foldl_step`). It visits the class
definitions of a file that stand in no other definition (`Visit.mem_ofStmts_and_classDef_iff`).

## The analysis

There are no dependencies before the pass, since building finds no relations
(`Namespace.relationSets_build`), passes that resolve references find none, and attributes come with
associations. The pass after it adds uses only. So the refinements that an analysis finds are
exactly those that the definitions show (`Inheritance.Refines`, `Project.Related`).

## Which definition comes first

A definition stands for what its module declares under the name. This is a function, and not a
class, if a function of that name was defined before the class in the same file; then a function
refines the bases, and this is the only way it can happen (`refinement_of_first_definition`).

## Analyses of concrete projects

`Project.analyzeOnce?` evaluates an analysis in which nothing is left unresolved by the first
passes, so that examples of analyses can be decided.
-/

namespace CodeAtlas

/-! ### Class definitions of a file -/

namespace Stmt

variable {s t : Stmt} {block rest : List Stmt}

theorem not_direct_nil : ¬ s.Direct [] := by
  intro h
  cases h with
  | mem h | compound h => cases h

/-- What stands in no definition of a block is its first statement, or inside that if it is no
definition, or further on. -/
theorem direct_cons_iff :
    s.Direct (t :: rest) ↔
      s = t ∨ (∃ head body, t = .compound head body ∧ s.Direct body) ∨ s.Direct rest := by
  constructor
  · intro h
    cases h with
    | mem h => exact (List.mem_cons.1 h).imp_right fun h ↦ .inr (.mem h)
    | compound hcompound h =>
      rcases List.mem_cons.1 hcompound with rfl | hcompound
      · exact .inr (.inl ⟨_, _, rfl, h⟩)
      · exact .inr (.inr (.compound hcompound h))
  · rintro (rfl | ⟨head, body, rfl, h⟩ | h)
    · exact .mem List.mem_cons_self
    · exact .compound List.mem_cons_self h
    · exact h.cons

/-- A class definition of a file is a declaration of the module. -/
theorem Direct.classDecl_mem {head : ClassHead} {body : List Stmt}
    (h : (Stmt.classDef head body).Direct block) :
    .classDecl head.name (Declaration.methodsOfList body) ∈ Declaration.ofStmts block := by
  have hsplit : ∀ {t : Stmt} {block : List Stmt} {d : Declaration}, t ∈ block →
      d ∈ Declaration.ofStmt t → d ∈ Declaration.ofStmts block := by
    intro t block d ht hd
    induction block with
    | nil => cases ht
    | cons first rest ih =>
      rw [Declaration.ofStmts]
      rcases List.mem_cons.1 ht with rfl | ht
      · exact List.mem_append_left _ hd
      · exact List.mem_append_right _ (ih ht)
  induction h with
  | mem h => exact hsplit h (by rw [Declaration.ofStmt]; exact List.mem_singleton_self _)
  | compound hcompound _ ih => exact hsplit hcompound (by rw [Declaration.ofStmt]; exact ih)

end Stmt

/-- A pass that does not enter definitions visits the class definitions of a file, and nothing else
that is one. -/
theorem Visit.mem_ofStmts_and_classDef_iff (ns : Namespace) {reach : Reach}
    (hreach : reach.definitions = false) {head : ClassHead} {v : Visit} {scopes : ScopeStack}
    {unbound : Nat} {block : List Stmt} :
    v ∈ ofStmts ns reach scopes unbound block ∧ v.site = .classDef head ↔
      v = ⟨scopes, unbound, .classDef head⟩ ∧ ∃ body, (Stmt.classDef head body).Direct block := by
  have hexprs : ∀ exprs, ¬ (v ∈ ofExprs reach scopes unbound exprs ∧ v.site = .classDef head) := by
    rintro exprs ⟨hv, hsite⟩
    obtain ⟨e, -, rfl⟩ := List.mem_map.1 hv
    cases hsite
  induction block using Stmt.block_induction with
  | nil => simp [ofStmts, Stmt.not_direct_nil]
  | simple exprs rest ih =>
    simp only [ofStmts, ofStmt, List.mem_append, or_and_right, ih, hexprs, Stmt.direct_cons_iff,
      reduceCtorEq, false_or, false_and, exists_false]
  | importModules clauses rest ih | importFrom source rest ih =>
    simp only [ofStmts, ofStmt, List.mem_append, List.mem_singleton, or_and_right, ih,
      Stmt.direct_cons_iff, reduceCtorEq, false_or, false_and, exists_false, or_iff_right_iff_imp]
    rintro ⟨rfl, hsite⟩
    cases hsite
  | compound exprs body rest ihBody ihRest =>
    simp only [ofStmts, ofStmt, List.mem_append, or_and_right, ihBody, ihRest, hexprs,
      Stmt.direct_cons_iff, reduceCtorEq, false_or, Stmt.compound.injEq, exists_or, and_or_left]
    refine or_congr_left (and_congr_right fun _ ↦ exists_congr fun _ ↦ ?_)
    simp
  | classDef head' body rest _ ihRest =>
    simp only [ofStmts, ofStmt, List.mem_append, List.mem_cons, or_and_right, ihRest, hexprs,
      hreach, Stmt.direct_cons_iff, reduceCtorEq, false_or, false_and, exists_false,
      Bool.false_eq_true, if_false, List.not_mem_nil, or_false, Stmt.classDef.injEq, exists_or, and_or_left]
    refine or_congr_left ⟨?_, ?_⟩
    · rintro ⟨rfl, hsite⟩
      cases hsite
      exact ⟨rfl, body, rfl, rfl⟩
    · rintro ⟨rfl, _, rfl, -⟩
      exact ⟨rfl, rfl⟩
  | funcDef head' body rest _ ihRest =>
    simp only [ofStmts, ofStmt, List.mem_append, List.mem_cons, or_and_right, ihRest, hexprs,
      hreach, Stmt.direct_cons_iff, reduceCtorEq, false_or, false_and, exists_false,
      Bool.false_eq_true, if_false, List.not_mem_nil, or_false, or_iff_right_iff_imp]
    rintro ⟨rfl, hsite⟩
    cases hsite

/-! ### What the pass records -/

/-- What was added to a set one by one, and is in it now, was there before or is one of these. -/
theorem RelationSet.mem_of_mem_foldl_insert {s : RelationSet} {r : Relation}
    {added : List Relation} (h : r ∈ (added.foldl insert s).toList) : r ∈ s.toList ∨ r ∈ added := by
  induction added generalizing s with
  | nil => exact .inl h
  | cons x rest ih =>
    rcases ih h with h | h
    · refine (mem_insert_iff.1 h).imp_right ?_
      rintro ⟨-, rfl⟩
      exact List.mem_cons_self
    · exact .inr (List.mem_cons_of_mem _ h)

namespace Inheritance

variable {project : Project} {ns ns' : Namespace} {component source target : Id} {head : ClassHead}

/-- What the name of a class definition in the file of a component stands for. -/
def definedAs (ns : Namespace) (component : Id) (head : ClassHead) : Option Id :=
  ScopeStack.childScope { component } ns head.name.text

/-- A class definition in a file shows that an entity refines a class: its name stands for the one,
and one of its bases for the other. -/
def Refines (ns : Namespace) (component : Id) (file : List Stmt) (source target : Id) : Prop :=
  ∃ head body, (Stmt.classDef head body).Direct file ∧ definedAs ns component head = some source ∧
    target ∈ targets ns component source head.bases

/-- The relations of a class definition, where its name stands for something. -/
def refinements (ns : Namespace) (component : Id) (head : ClassHead) : List Relation :=
  (definedAs ns component head).toList.flatMap fun source ↦
    (targets ns component source head.bases).map fun target ↦
      .dependency source target .refines
        (some (if isAbstract head.bases then .realizes else .derives))

/-- The refinements of a class definition lead from what its name stands for to what its bases name.
-/
theorem mem_refinements_iff {r : Relation} :
    r ∈ refinements ns component head ↔
      ∃ source target, definedAs ns component head = some source ∧
        target ∈ targets ns component source head.bases ∧
          r = .dependency source target .refines
            (some (if isAbstract head.bases then .realizes else .derives)) := by
  simp only [refinements, List.mem_flatMap, Option.mem_toList, List.mem_map]
  exact exists_congr fun source ↦ ⟨fun ⟨h, target, ht, hr⟩ ↦ ⟨target, h, ht, hr.symm⟩,
    fun ⟨target, h, ht, hr⟩ ↦ ⟨h, target, ht, hr.symm⟩⟩

/-- What one visit finds. -/
def found (ns : Namespace) (v : Visit) : List Relation :=
  match v.site with
  | .classDef head => if v.scopes.atModuleLevel then refinements ns v.scopes.component head else []
  | _ => []

/-- Recording relations adds them to the dependencies. -/
theorem ns_foldl_record (p : Progress) (rs : List Relation) :
    (rs.foldl record p).ns =
      { p.ns with dependencies := rs.foldl RelationSet.insert p.ns.dependencies } := by
  induction rs generalizing p with
  | nil => rfl
  | cons r rest ih => exact ih (record p r)

/-- One visit records what it finds. -/
theorem step_eq_foldl (p : Progress) (v : Visit) : step p v = (found p.ns v).foldl record p := by
  obtain ⟨⟨component, inner⟩, unbound, site⟩ := v
  cases site with
  | expr | importModules | importFrom | funcDef => rfl
  | classDef head =>
    cases inner with
    | cons => rfl
    | nil =>
      have hlevel : ({ component } : ScopeStack).atModuleLevel = true := rfl
      simp only [step, found, refinements, definedAs, hlevel, if_true]
      cases ScopeStack.childScope { component } p.ns head.name.text with
      | none => rfl
      | some cls => rw [Option.toList_some, List.flatMap_singleton, List.foldl_map]

/-- A visit adds what it finds to the dependencies. -/
theorem ns_step (p : Progress) (v : Visit) :
    (step p v).ns =
      { p.ns with dependencies := (found p.ns v).foldl RelationSet.insert p.ns.dependencies } := by
  rw [step_eq_foldl, ns_foldl_record]

/-- What is found depends on scopes only. -/
theorem targets_congr (h : ns.SameScopes ns') (component source : Id) (bases : List Expr) :
    targets ns' component source bases = targets ns component source bases := by
  have htarget : target ns' component source = target ns component source := by
    funext e
    unfold target
    rw [h.scope?_eq, h.lookup_eq, h.resolve_eq]
  rw [targets, htarget, h.kind?_eq, targets]

/-- What the name of a class definition stands for depends on scopes only. -/
theorem definedAs_congr (h : ns.SameScopes ns') : definedAs ns' = definedAs ns := by
  funext component head
  rw [definedAs, h.childScope_eq, definedAs]

/-- What is found at a visit depends on scopes only. -/
theorem found_congr (h : ns.SameScopes ns') : found ns' = found ns := by
  have hrefinements : refinements ns' = refinements ns := by
    funext component head
    simp only [refinements, definedAs_congr h, targets_congr h]
  funext v
  rw [found, hrefinements, found]

/-- All visits together record what each of them finds in the namespace at the start. -/
theorem ns_foldl_step (p : Progress) (visits : List Visit) :
    (visits.foldl step p).ns = { p.ns with
      dependencies :=
        (visits.flatMap (found p.ns)).foldl RelationSet.insert p.ns.dependencies } := by
  induction visits generalizing p with
  | nil => rfl
  | cons v rest ih =>
    rw [List.foldl_cons, ih, found_congr (sameScopes_step p v), ns_step, List.flatMap_cons,
      List.foldl_append]

/-- Which refinements a file shows depends on scopes only. -/
theorem refines_congr (h : ns.SameScopes ns') : Refines ns' = Refines ns := by
  funext component file source target
  simp only [Refines, definedAs_congr h, targets_congr h]

/-! ### All files -/

/-- What the pass finds in the files of a namespace. -/
def foundIn (project : Project) (ns : Namespace) : List Relation :=
  (project.visits { definitions := false } ns).flatMap (found ns)

/-- The pass over files, seen as one over visits, which do not depend on the namespace. -/
theorem foldl_pass (project : Project) (ns : Namespace) (files : List SourceFile) (p : Progress) :
    files.foldl (fun p f ↦ pass f.component (project.statements f.path) p) p =
      (files.flatMap fun f ↦ Visit.ofFile ns { definitions := false } f.component
        (project.statements f.path)).foldl step p := by
  induction files generalizing p with
  | nil => rfl
  | cons f rest ih =>
    rw [List.foldl_cons, List.flatMap_cons, List.foldl_append, ih, pass,
      Visit.ofFile_of_not_definitions ns p.ns rfl]

/-- The pass over all files adds what it finds in them to the dependencies. -/
theorem ns_run (hreadable : project.Readable ns.sources) :
    (project.run pass { ns }).1.ns = { ns with
      dependencies := (foundIn project ns).foldl RelationSet.insert ns.dependencies } := by
  rw [Project.run, Project.traverse_eq_foldl hreadable, foldl_pass project ns, ns_foldl_step]
  rfl

/-- What is found in files are the refinements of class definitions in them. -/
theorem mem_foundIn_iff {r : Relation} :
    r ∈ foundIn project ns ↔
      ∃ f ∈ ns.sources, ∃ head body, (Stmt.classDef head body).Direct (project.statements f.path) ∧
        r ∈ refinements ns f.component head := by
  have hreach : Reach.definitions { definitions := false } = false := rfl
  simp only [foundIn, Project.visits, List.mem_flatMap]
  constructor
  · rintro ⟨v, ⟨f, hf, hv⟩, hr⟩
    unfold found at hr
    split at hr
    · next head hsite =>
      obtain ⟨rfl, body, hbody⟩ := (Visit.mem_ofStmts_and_classDef_iff ns hreach).1 ⟨hv, hsite⟩
      exact ⟨f, hf, head, body, hbody, hr⟩
    · cases hr
  · rintro ⟨f, hf, head, body, hbody, hr⟩
    obtain ⟨hv, -⟩ := (Visit.mem_ofStmts_and_classDef_iff ns hreach).2 ⟨rfl, body, hbody⟩
    exact ⟨_, ⟨f, hf, hv⟩, hr⟩

/-- What is found in files are refinements that class definitions show. -/
theorem refines_of_mem_foundIn {r : Relation} (h : r ∈ foundIn project ns) :
    (∃ stereotype, r.kind = .dependency .refines stereotype) ∧
      ∃ f ∈ ns.sources, Refines ns f.component (project.statements f.path) r.source r.target := by
  obtain ⟨f, hf, head, body, hbody, hr⟩ := mem_foundIn_iff.1 h
  obtain ⟨source, target, hsource, htarget, rfl⟩ := mem_refinements_iff.1 hr
  exact ⟨⟨_, rfl⟩, f, hf, head, body, hbody, hsource, htarget⟩

/-- All refinements that class definitions show are found. -/
theorem exists_mem_foundIn_of_refines {f : SourceFile} (hf : f ∈ ns.sources)
    (h : Refines ns f.component (project.statements f.path) source target) :
    ∃ r ∈ foundIn project ns, r.toRelationKey = ⟨source, target, 0⟩ := by
  obtain ⟨head, body, hbody, hsource, htarget⟩ := h
  have hr := mem_refinements_iff.2 ⟨source, target, hsource, htarget, rfl⟩
  exact ⟨_, mem_foundIn_iff.2 ⟨f, hf, head, body, hbody, hr⟩, rfl⟩

end Inheritance

/-! ### What other passes add -/

namespace Namespace

variable {ns ns' : Namespace} {id : Id}

/-- The dependencies, the associations and the condensed relations. -/
def relationSets (ns : Namespace) : RelationSet × RelationSet × RelationSet :=
  (ns.dependencies, ns.associations, ns.condensed)

theorem relationSets_modify {f : Body → Body} :
    (ns.modify id f).relationSets = ns.relationSets := by
  unfold modify
  split <;> rfl

/-- Building finds no relations. -/
theorem relationSets_build {project : Project} (h : project.build = .ok ns) :
    ns.relationSets = (∅, ∅, ∅) := by
  refine build_induction (fun ns ↦ ns.relationSets = (∅, ∅, ∅)) h rfl fun ns ns' _ _ hstep hns ↦ ?_
  have hcreate : ∀ {ns created : Namespace} {name : QualName} {body : Body} {id : Id},
      ns.create name body = some (id, created) → created.relationSets = ns.relationSets := by
    intro ns created name body id hcreate
    rw [(create_eq_some_iff.1 hcreate).2.2]
    rfl
  rw [← hns]
  cases hstep with
  | container _ h => exact hcreate h
  | declare _ _ h => exact relationSets_modify.trans (hcreate h)
  | attach => exact relationSets_modify
  | prune =>
    unfold prune
    split <;> rfl
  | keep | root => rfl

end Namespace

/-- Passes that resolve references find no relations. -/
theorem Repeated.relationSets_pass (r : Repeated) (component : Id) (file : List Stmt)
    (p : Progress) : (r.pass component file p).ns.relationSets = p.ns.relationSets := by
  cases r with
  | exports =>
    refine Exports.pass_induction (fun ns ↦ ns.relationSets = p.ns.relationSets)
      (fun ns f _ hns ↦ ?_) file rfl
    exact Namespace.relationSets_modify.trans hns
  | imports =>
    have hframe := (Imports.grows_run (Visit.ofFile p.ns {} component file) p).frame
    show (Imports.run (Visit.ofFile p.ns {} component file) p).ns.withoutImports.relationSets =
      p.ns.withoutImports.relationSets
    rw [hframe]

/-- Attributes come with associations, not with dependencies. -/
theorem Attributes.dependencies_record (owner : Id) (label : Label) (p : Progress) (name : String) :
    (record owner label p name).ns.dependencies = p.ns.dependencies := by
  cases label with
  | cls | primitive | unknown => exact congrArg Prod.fst Namespace.relationSets_modify

/-- The pass for attributes finds no dependencies. -/
theorem Attributes.dependencies_pass (component : Id) (file : List Stmt) (p : Progress) :
    (pass component file p).ns.dependencies = p.ns.dependencies := by
  refine foldl_keeps (fun p : Progress ↦ p.ns.dependencies) (fun p v ↦ ?_) _ p
  rcases step_cases p v with h | ⟨_, owner, _, label, -, -, h⟩
  · rw [h]
  · rw [h]
    exact foldl_keeps (fun p : Progress ↦ p.ns.dependencies) (dependencies_record owner label) _ p

/-- A relation is a dependency by refinement. -/
def Namespace.Refinement (ns : Namespace) (r : Relation) : Prop :=
  r ∈ ns.dependencies.toList ∧ ∃ stereotype, r.kind = .dependency .refines stereotype

/-- Calls are uses, and so no refinements. -/
theorem Calls.refinement_pass (component : Id) (file : List Stmt) (p : Progress) :
    (pass component file p).ns.Refinement = p.ns.Refinement := by
  refine foldl_keeps (fun p : Progress ↦ p.ns.Refinement) (fun p v ↦ ?_) _ p
  unfold step
  split
  · split
    · next id stereotype _ =>
      funext r
      refine propext (and_congr_left ?_)
      rintro ⟨_, hkind⟩
      refine RelationSet.mem_insert_iff.trans (or_iff_left ?_)
      rintro ⟨-, rfl⟩
      cases hkind
    · rfl
  · rfl

/-! ### The analysis -/

section Analysis

variable {project : Project} {built ns ns' : Namespace} {a : Analysis}

/-- A pass over all files succeeds if these can be used. -/
theorem Project.runOnce_eq_ok {pass : Pass} (h : project.runOnce pass ns = .ok ns') :
    project.Readable ns.sources ∧ (project.run pass { ns }).1.ns = ns' := by
  unfold runOnce at h
  rcases hrun : project.run pass { ns } with ⟨progress, - | failure⟩
  · rw [hrun] at h
    cases h
    refine ⟨(traverse_snd_eq_none_iff pass { ns }).1 ?_, rfl⟩
    exact congrArg Prod.snd hrun
  · rw [hrun] at h
    cases h

/-- The namespace in which the references of a project were resolved, and the one that was built. -/
structure Project.Imported (project : Project) (built ns : Namespace) : Prop where
  build : project.build = .ok built
  resolve : ∃ exported exports imports,
    project.resolve Exports.pass built = .ok (exported, exports) ∧
      project.resolve Imports.pass exported = .ok (ns, imports)

/-- What passes that resolve references keep holds in it if it holds in what was built. -/
theorem Project.Imported.induction (h : project.Imported built ns) (holds : Namespace → Prop)
    (hpass : ∀ (r : Repeated) component file (p : Progress), holds p.ns →
      holds (r.pass component file p).ns) (hbuilt : holds built) : holds ns := by
  obtain ⟨exported, _, _, hexports, himports⟩ := h.resolve
  exact Project.resolve_induction holds (hpass .imports)
    (Project.resolve_induction holds (hpass .exports) hbuilt hexports) himports

/-- An analysis resolves references, runs the three passes that add relations, and condenses. -/
theorem Project.exists_imported (h : project.analyze = .ok a) :
    ∃ built ns attributed related called, project.Imported built ns ∧
      project.runOnce Attributes.pass ns = .ok attributed ∧
      project.runOnce Inheritance.pass attributed = .ok related ∧
      project.runOnce Calls.pass related = .ok called ∧ a.ns = called.condense := by
  obtain ⟨built, hbuild, hrest⟩ := bind_eq_ok_iff.1 h
  obtain ⟨⟨exported, exports⟩, hexports, hrest⟩ := bind_eq_ok_iff.1 hrest
  obtain ⟨⟨ns, imports⟩, himports, hrest⟩ := bind_eq_ok_iff.1 hrest
  obtain ⟨attributed, hattributes, hrest⟩ := bind_eq_ok_iff.1 hrest
  obtain ⟨related, hinheritance, hrest⟩ := bind_eq_ok_iff.1 hrest
  obtain ⟨called, hcalls, hrest⟩ := bind_eq_ok_iff.1 hrest
  cases hrest
  exact ⟨built, ns, attributed, related, called,
    ⟨hbuild, exported, exports, imports, hexports, himports⟩, hattributes, hinheritance, hcalls,
    rfl⟩

/-- Where references were resolved no relations were found yet. -/
theorem Project.Imported.relationSets (h : project.Imported built ns) :
    ns.relationSets = (∅, ∅, ∅) := by
  refine h.induction (fun ns ↦ ns.relationSets = (∅, ∅, ∅)) (fun r component file p hp ↦ ?_)
    (Namespace.relationSets_build h.build)
  exact (r.relationSets_pass component file p).trans hp

theorem Project.Imported.reaches (h : project.Imported built ns) : project.Reaches ns :=
  h.induction project.Reaches (fun r component file _ hp ↦ hp.repeated r component file)
    (.build h.build)

/-- Resolving references keeps the outline. -/
theorem Project.Imported.sameOutline (h : project.Imported built ns) : built.SameOutline ns :=
  h.induction built.SameOutline
    (fun r component file p hp ↦ hp.trans (r.sameOutline_pass component file p))
    (Namespace.SameScopes.refl built).toSameOutline

/-- Where references were resolved all files can be used. -/
theorem Project.Imported.readable (h : project.Imported built ns) :
    project.Readable ns.sources := by
  obtain ⟨_, _, _, hexports, -⟩ := h.resolve
  rw [h.sameOutline.sources]
  exact Project.readable_of_resolve hexports

/-- A namespace that passes run on, in which no dependencies were found yet. -/
structure Project.Resolved (project : Project) (built ns : Namespace) : Prop where
  reaches : project.Reaches ns
  outline : built.SameOutline ns
  dependencies : ns.dependencies = ∅

/-- What the namespace of an analysis has in common with the one that was built, and its
refinements. -/
structure Project.Related (project : Project) (built ns : Namespace) : Prop where
  build : project.build = .ok built
  outline : built.SameOutline ns
  named : ns.Named
  sound : ∀ r, ns.Refinement r → ∃ f ∈ ns.sources,
    Inheritance.Refines ns f.component (project.statements f.path) r.source r.target
  complete : ∀ f ∈ ns.sources, ∀ source target,
    Inheritance.Refines ns f.component (project.statements f.path) source target →
      ∃ r, ns.Refinement r ∧ r.source = source ∧ r.target = target

/-- The pass that looks for inheritance records what class definitions show. -/
theorem Project.Resolved.inheritance (h : project.Resolved built ns)
    (hbuild : project.build = .ok built)
    (hok : project.runOnce Inheritance.pass ns = .ok ns') : project.Related built ns' := by
  obtain ⟨hreadable, hrun⟩ := Project.runOnce_eq_ok hok
  rw [Inheritance.ns_run hreadable, h.dependencies] at hrun
  subst hrun
  have hsame : ns.SameScopes { ns with
      dependencies := (Inheritance.foundIn project ns).foldl RelationSet.insert ∅ } :=
    ⟨⟨fun _ ↦ rfl, fun _ ↦ rfl, rfl, rfl⟩, fun _ _ ↦ rfl⟩
  have hmem : ∀ r ∈ ((Inheritance.foundIn project ns).foldl RelationSet.insert ∅).toList,
      r ∈ Inheritance.foundIn project ns := fun r hr ↦
    (RelationSet.mem_of_mem_foldl_insert hr).resolve_left List.not_mem_nil
  refine ⟨hbuild, h.outline.trans hsame.toSameOutline, hsame.named h.reaches.named, fun r hr ↦ ?_,
    fun f hf source target hrefines ↦ ?_⟩
  · rw [Inheritance.refines_congr hsame]
    exact (Inheritance.refines_of_mem_foundIn (hmem r hr.1)).2
  · rw [Inheritance.refines_congr hsame] at hrefines
    have hf : f ∈ ns.sources := hf
    obtain ⟨x, hx, hkey⟩ := Inheritance.exists_mem_foundIn_of_refines hf hrefines
    -- another definition may have recorded a relation with this key first
    obtain ⟨r, hr, hkey'⟩ := RelationSet.contains_iff.1
      (RelationSet.contains_foldl_insert (s := ∅) hx)
    have hkey : r.toRelationKey = ⟨source, target, 0⟩ := hkey'.trans hkey
    refine ⟨r, ⟨hr, (Inheritance.refines_of_mem_foundIn (hmem r hr)).1⟩, ?_, ?_⟩
    · rw [hkey]
    · rw [hkey]

/-- What keeps scopes and refinements keeps what is known of them. -/
theorem Project.Related.congr (h : project.Related built ns) (hsame : ns.SameScopes ns')
    (hrefinement : ns'.Refinement = ns.Refinement) : project.Related built ns' := by
  refine ⟨h.build, h.outline.trans hsame.toSameOutline, hsame.named h.named, ?_, ?_⟩
  · rw [hrefinement, Inheritance.refines_congr hsame, hsame.sources]
    exact h.sound
  · rw [hrefinement, Inheritance.refines_congr hsame, hsame.sources]
    exact h.complete

/-- The refinements of an analysis are those that class definitions show. -/
theorem Project.exists_related (h : project.analyze = .ok a) :
    ∃ built, project.Related built a.ns := by
  obtain ⟨built, imported, attributed, related, called, himported, hattributes, hinheritance,
    hcalls, hns⟩ := Project.exists_imported h
  have hattributed : project.Resolved built attributed := by
    rw [← (Project.runOnce_eq_ok hattributes).2]
    refine Project.traverse_induction (fun component file p hp ↦ ?_)
      ⟨himported.reaches, himported.sameOutline, congrArg Prod.fst himported.relationSets⟩
    exact ⟨hp.reaches.relating .attributes component file,
      hp.outline.trans (Relating.attributes.sameScopes_pass component file p).toSameOutline,
      (Attributes.dependencies_pass component file p).trans hp.dependencies⟩
  have hrelated := hattributed.inheritance himported.build hinheritance
  have hcalled : project.Related built called := by
    rw [← (Project.runOnce_eq_ok hcalls).2]
    refine Project.traverse_induction (fun component file p hp ↦ ?_) hrelated
    exact hp.congr (Relating.calls.sameScopes_pass component file p)
      (Calls.refinement_pass component file p)
  rw [hns]
  refine ⟨built, hcalled.congr (Namespace.sameScopes_condense called) ?_⟩
  funext r
  rw [Namespace.Refinement, Namespace.dependencies_condense, Namespace.Refinement]

/-! ### Which definition comes first -/

/-- What the component of a file declares is what the file declares first. -/
theorem declaresFirst_of_build (hdistinct : Entry.Distinct project.entries)
    (h : project.build = .ok built) {f : SourceFile} (hf : f ∈ built.sources) :
    built.DeclaresFirst f.component (Declaration.ofStmts (project.statements f.path)) := by
  obtain ⟨d, owner, ⟨_, _, ⟨earlier, later, hdirectories, -⟩, -⟩, hplaced⟩ :=
    (Namespace.complete_build h).placed f hf
  obtain ⟨file, bytes, statements, hpath, hfile, hparse, hfirst⟩ := hplaced.reads
  have hd : d ∈ project.directories := by
    rw [hdirectories]
    exact List.mem_append_right _ List.mem_cons_self
  have hstatements : project.statements f.path = statements := by
    rw [hpath] at hparse
    rw [Project.statements, hpath, Project.source_eq_parse hdistinct hd hfile, hparse]
  rwa [hstatements]

/-- The name of a class definition stands for what the file defines first under the name. -/
theorem Inheritance.kind?_of_definedAs {component source : Id} {head : ClassHead} {body : List Stmt}
    {file : List Stmt} (hnamed : ns.Named)
    (hfirst : ns.DeclaresFirst component (Declaration.ofStmts file))
    (hbody : (Stmt.classDef head body).Direct file)
    (hsource : definedAs ns component head = some source) :
    ∃ d, Declaration.first? (Declaration.ofStmts file) head.name.text = some d ∧
      ns.kind? source = some d.body.kind := by
  obtain ⟨d, hd⟩ : ∃ d, Declaration.first? (Declaration.ofStmts file) head.name.text = some d := by
    refine Option.isSome_iff_exists.1 (List.find?_isSome.2 ⟨_, hbody.classDecl_mem, ?_⟩)
    exact decide_eq_true rfl
  refine ⟨d, hd, ?_⟩
  have hkind := ScopeStack.kind?_of_childScope hsource
  simp only [definedAs, ScopeStack.childScope, Option.bind_eq_bind, Option.bind_eq_some_iff]
    at hsource
  obtain ⟨scope, hscope, q, hq, id, hlookup, kind, hid, heq⟩ := hsource
  obtain rfl : id = source := by
    cases kind with
    | package | component => cases heq
    | cls | function => exact Option.some.inj heq
  obtain ⟨e, he, hscope⟩ := Option.bind_eq_some_iff.1 hscope
  obtain ⟨rfl, -⟩ := hnamed.declared _ e he scope hscope _ q hq
  obtain ⟨name, ⟨e', he', -, rfl⟩, hall⟩ := hfirst
  have he : ns.get? component = some e := he
  rw [he] at he'
  cases he'
  obtain ⟨i, kind', hi, hkind'⟩ := hall _ d hd
  rw [hi.lookup hnamed.toConsistent] at hlookup
  cases hlookup
  rw [hi.kind?] at hkind ⊢
  -- what a name stands for is a class or a function, so no module or directory has it
  rcases hkind' with rfl | rfl | rfl
  · rfl
  · exact absurd hkind (by simp)
  · exact absurd hkind (by simp)

/-- After an analysis the name of a class definition stands for what the file defines first under
it. -/
theorem Project.Related.kind?_of_definedAs (h : project.Related built ns)
    (hdistinct : Entry.Distinct project.entries) {f : SourceFile} (hf : f ∈ ns.sources)
    {head : ClassHead} {body : List Stmt} {source : Id}
    (hbody : (Stmt.classDef head body).Direct (project.statements f.path))
    (hsource : Inheritance.definedAs ns f.component head = some source) :
    ∃ d, Declaration.first? (Declaration.ofStmts (project.statements f.path)) head.name.text =
        some d ∧ ns.kind? source = some d.body.kind := by
  rw [h.outline.sources] at hf
  obtain ⟨name, howner, hall⟩ := declaresFirst_of_build hdistinct h.build hf
  refine Inheritance.kind?_of_definedAs h.named ⟨name, h.outline.hasEntity howner,
    fun short d hd ↦ ?_⟩ hbody hsource
  obtain ⟨i, kind, hi, hkind⟩ := hall short d hd
  exact ⟨i, kind, h.outline.hasEntity hi, hkind⟩

/-- **Refinement.** After an analysis, what is refined is a class, and not refined by itself. The
refinements are those that class definitions show: from what the name of the class stands for in its
module to a class that a base names. This is of the kind that the file first defines under the name.
So all refinements are between classes exactly if no class definition that comes after one of a
function with the same name has a base that names a class of the project. -/
theorem refinement_of_first_definition (h : project.analyze = .ok a) :
    (∀ r, a.ns.Refinement r → a.ns.kind? r.target = some .cls ∧ r.source ≠ r.target ∧
      ∃ f ∈ a.ns.sources,
        Inheritance.Refines a.ns f.component (project.statements f.path) r.source r.target) ∧
    (∀ f ∈ a.ns.sources, ∀ source target,
      Inheritance.Refines a.ns f.component (project.statements f.path) source target →
        ∃ r, a.ns.Refinement r ∧ r.source = source ∧ r.target = target) ∧
    (Entry.Distinct project.entries →
      (∀ f ∈ a.ns.sources, ∀ head body source,
        (Stmt.classDef head body).Direct (project.statements f.path) →
          Inheritance.definedAs a.ns f.component head = some source →
            ∃ d, Declaration.first? (Declaration.ofStmts (project.statements f.path))
                head.name.text = some d ∧ a.ns.kind? source = some d.body.kind) ∧
      ((∀ r, a.ns.Refinement r → a.ns.kind? r.source = some .cls) ↔
        ∀ f ∈ a.ns.sources, ∀ head body,
          (Stmt.classDef head body).Direct (project.statements f.path) →
            ∀ g, Declaration.first? (Declaration.ofStmts (project.statements f.path))
                head.name.text = some (.functionDecl g) →
              ∀ source, Inheritance.definedAs a.ns f.component head = some source →
                Inheritance.targets a.ns f.component source head.bases = [])) := by
  obtain ⟨built, hrelated⟩ := Project.exists_related h
  refine ⟨fun r hr ↦ ?_, hrelated.complete, fun hdistinct ↦ ⟨fun f hf head body source ↦
    hrelated.kind?_of_definedAs hdistinct hf,
    fun hall f hf head body hbody g hg source hsource ↦ ?_, fun hall r hr ↦ ?_⟩⟩
  · obtain ⟨f, hf, hrefines⟩ := hrelated.sound r hr
    have ⟨_, _, _, _, htarget⟩ := hrefines
    have hfilter := (List.mem_filter.1 htarget).2
    simp only [Bool.and_eq_true, bne_iff_ne, beq_iff_eq] at hfilter
    exact ⟨hfilter.2, hfilter.1.symm, f, hf, hrefines⟩
  · refine List.eq_nil_iff_forall_not_mem.2 fun target htarget ↦ ?_
    obtain ⟨r, hr, rfl, -⟩ := hrelated.complete f hf source target
      ⟨head, body, hbody, hsource, htarget⟩
    obtain ⟨d, hd, hfunction⟩ := hrelated.kind?_of_definedAs hdistinct hf hbody hsource
    rw [hg] at hd
    cases hd
    rw [hall r hr] at hfunction
    cases hfunction
  · obtain ⟨f, hf, head, body, hbody, hsource, htarget⟩ := hrelated.sound r hr
    obtain ⟨d, hd, hclass⟩ := hrelated.kind?_of_definedAs hdistinct hf hbody hsource
    cases d with
    | classDecl => exact hclass
    | functionDecl g =>
      rw [hall f hf head body hbody g hd _ hsource] at htarget
      cases htarget

/-- A pass over all files that does not fail. -/
theorem Project.run_eq_of_isNone {pass : Pass} {p : Progress}
    (h : (project.run pass p).2.isNone = true) :
    project.run pass p = ((project.run pass p).1, none) :=
  Prod.ext rfl (Option.isNone_iff_eq_none.1 h)

/-- The analysis of a project in which nothing is left unresolved by the first passes. -/
theorem Project.analyze_eq_ok {exported imported attributed related called : Progress}
    (hbuild : project.build = .ok built)
    (hexports : project.run Exports.pass { ns := built } = (exported, none))
    (hexported : exported.count = 0)
    (himports : project.run Imports.pass { ns := exported.ns } = (imported, none))
    (himported : imported.count = 0)
    (hattributes : project.run Attributes.pass { ns := imported.ns } = (attributed, none))
    (hinheritance : project.run Inheritance.pass { ns := attributed.ns } = (related, none))
    (hcalls : project.run Calls.pass { ns := related.ns } = (called, none)) :
    project.analyze = .ok ⟨called.ns.condense, ⟨1, 0⟩, ⟨1, 0⟩⟩ := by
  have honce : ∀ {pass : Pass} {ns : Namespace} {p : Progress},
      project.run pass { ns } = (p, none) → project.runOnce pass ns = .ok p.ns := by
    intro pass ns p hrun
    rw [runOnce, hrun]
  simp only [analyze, hbuild, resolve_of_count_eq_zero hexports hexported,
    resolve_of_count_eq_zero himports himported, honce hattributes, honce hinheritance,
    honce hcalls, bind, Except.bind, pure, Except.pure]

/-- The namespace of such an analysis, evaluated pass by pass. -/
def Project.analyzeOnce? (project : Project) : Option Namespace := do
  let built ← project.build.toOption
  let exported := project.run Exports.pass { ns := built }
  let imported := project.run Imports.pass { ns := exported.1.ns }
  let attributed := project.run Attributes.pass { ns := imported.1.ns }
  let related := project.run Inheritance.pass { ns := attributed.1.ns }
  let called := project.run Calls.pass { ns := related.1.ns }
  guard (exported.1.count = 0 ∧ imported.1.count = 0)
  guard ([exported.2, imported.2, attributed.2, related.2, called.2].all Option.isNone)
  return called.1.ns.condense

/-- What is read off the evaluated namespace is read off that of the analysis. -/
theorem Project.exists_analyze_of_analyzeOnce? {α : Type} {read : Namespace → α} {value : α}
    (h : project.analyzeOnce?.map read = some value) :
    ∃ a, project.analyze = .ok a ∧ read a.ns = value := by
  obtain ⟨ns, hns, rfl⟩ := Option.map_eq_some_iff.1 h
  obtain ⟨built, hbuilt, hns⟩ := Option.bind_eq_some_iff.1 hns
  obtain ⟨_, hbuild, rfl⟩ := exists_ok_of_toOption (congrArg (Option.map fun ns ↦ ns) hbuilt)
  simp only [Option.bind_eq_bind, Option.bind_eq_some_iff, Option.guard_eq_some', List.all_cons,
    List.all_nil, Bool.and_true, Bool.and_eq_true] at hns
  obtain ⟨_, ⟨hexported, himported⟩, _, ⟨hexports, himports, hattributes, hinheritance, hcalls⟩,
    hns⟩ := hns
  cases hns
  exact ⟨_, analyze_eq_ok hbuild (run_eq_of_isNone hexports) hexported (run_eq_of_isNone himports)
    himported (run_eq_of_isNone hattributes) (run_eq_of_isNone hinheritance)
    (run_eq_of_isNone hcalls), rfl⟩

end Analysis

/-- A class whose name is that of a function before it, and that has a base. -/
def precededText : String :=
  "class B:0\ndef X():0\nclass X(B):0\n"

/-- The project with this module only. -/
def precededProject : Project :=
  singleModule "p" precededText

theorem exists_analyze_precededProject :
    ∃ a, precededProject.analyze = .ok a ∧
      a.ns.dependencies.toList = [.dependency 2 1 .refines (some .derives)] ∧
      a.ns.kind? 2 = some .function := by
  have hanalyze : (precededProject.analyzeOnce?.map fun ns ↦ (ns.dependencies.toList, ns.kind? 2)) =
      some ([.dependency 2 1 .refines (some .derives)], some .function) := by
    decide +kernel
  obtain ⟨a, ha, hread⟩ := Project.exists_analyze_of_analyzeOnce? hanalyze
  exact ⟨a, ha, Prod.mk.inj hread⟩

/-- The function refines the base of the class that has its name. -/
theorem function_refines_class :
    Entry.Distinct precededProject.entries ∧ ∃ a, precededProject.analyze = .ok a ∧
      ∃ r, a.ns.Refinement r ∧ a.ns.kind? r.source = some .function ∧
        a.ns.kind? r.target = some .cls ∧ r.source ≠ r.target ∧
        (∃ f ∈ a.ns.sources, ∃ head body g,
          (Stmt.classDef head body).Direct (precededProject.statements f.path) ∧
          Inheritance.definedAs a.ns f.component head = some r.source ∧
          r.target ∈ Inheritance.targets a.ns f.component r.source head.bases ∧
          Declaration.first? (Declaration.ofStmts (precededProject.statements f.path))
            head.name.text = some (.functionDecl g)) ∧
        ¬ ∀ f ∈ a.ns.sources, ∀ head body,
          (Stmt.classDef head body).Direct (precededProject.statements f.path) →
            ∀ g, Declaration.first? (Declaration.ofStmts (precededProject.statements f.path))
                head.name.text = some (.functionDecl g) →
              ∀ source, Inheritance.definedAs a.ns f.component head = some source →
                Inheritance.targets a.ns f.component source head.bases = [] := by
  have hdistinct : Entry.Distinct precededProject.entries := distinct_singleModule "p" precededText
  obtain ⟨a, ha, hdependencies, hkind⟩ := exists_analyze_precededProject
  obtain ⟨hsound, -, hfirst⟩ := refinement_of_first_definition ha
  obtain ⟨hdefined, hall⟩ := hfirst hdistinct
  have hr : a.ns.Refinement (.dependency 2 1 .refines (some .derives)) :=
    ⟨by rw [hdependencies]; exact List.mem_singleton_self _, _, rfl⟩
  have hfunction : a.ns.kind? (Relation.dependency 2 1 .refines (some .derives)).source =
      some .function := hkind
  obtain ⟨hclass, hne, f, hf, head, body, hbody, hsource, htarget⟩ := hsound _ hr
  refine ⟨hdistinct, a, ha, _, hr, hfunction, hclass, hne, ?_, fun hnone ↦ ?_⟩
  · obtain ⟨d, hd, hd'⟩ := hdefined f hf head body _ hbody hsource
    cases d with
    | classDecl =>
      rw [hfunction] at hd'
      cases hd'
    | functionDecl g => exact ⟨f, hf, head, body, g, hbody, hsource, htarget, hd⟩
  · have hcls := hall.2 hnone _ hr
    rw [hfunction] at hcls
    cases hcls

end CodeAtlas
