import CodeAtlas.Proofs.Passes
import CodeAtlas.Proofs.SyntaxTrees

/-!
# Names that lead somewhere

Scopes refer to entities by qualified name, in a table of what is declared in them and a table of
what is imported. Both only ever hold names of entities that are there (`Namespace.Named`).

## Declared names

Declarations are entered together with the entity they name, and what building removes again is a
module or a directory, which nothing declares (`BuildStep.declaresIn`). What is declared is also
named below the entity that declares it, and something that this entity may declare
(`Entity.DeclaresIn`); for a class that means a function.

## Imported names

An import copies a name that was checked, declared or imported before (`isSome_lookup_of_known`),
and no pass removes an entity. So the tables stay in this state while imports are resolved
(`Imports.named_run`), and in all namespaces that passes lead to (`Project.Reaches.named`).

## Look-ups

The look-up of a name from scope to scope therefore never ends at a name without an entity
(`Named.resolveName_eq_none_iff`), and the constructor that a class declares is there when the class
is called (`Named.used_constructor`, `names_never_dangle`).
-/

namespace CodeAtlas

/-! ### Declared names -/

/-- What an entity declares is there, named below the entity, and something the entity may
declare. -/
def Entity.DeclaresIn (ns : Namespace) (e : Entity) : Prop :=
  ∀ s, e.body.scope? = some s → ∀ short q, s.declared[short]? = some q →
    q = e.qualName.child short ∧
      ∃ target body, Body.Declarable e.kind body ∧ ns.HasEntity target body.kind q

/-- What an entity declares is read off its name, its kind and its scope. -/
theorem Entity.DeclaresIn.congr {ns : Namespace} {e e' : Entity} (h : e.DeclaresIn ns)
    (hname : e'.qualName = e.qualName) (hkind : e'.body.kind = e.body.kind)
    (hscope : e'.body.scope? = e.body.scope?) : e'.DeclaresIn ns := by
  intro s hs short q hq
  rw [hname, Entity.kind, hkind]
  exact h s (hscope ▸ hs) short q hq

namespace Body

variable {b body : Body} {kind : EntityKind}

theorem Declarable.kind_eq_function (h : Declarable .cls body) : body.kind = .function := by
  cases h with
  | method f => rfl

/-- Directories and modules declare nothing at first. -/
theorem Container.declared_eq (h : b.Container) {s : Scope} (hs : b.scope? = some s) :
    s.declared = ∅ := by
  cases h with
  | package => cases hs
  | component =>
    cases hs
    rfl

theorem Declarable.declared_eq (h : Declarable kind body) {s : Scope} (hs : body.scope? = some s) :
    s.declared = ∅ := by
  cases h with
  | cls | function f | method f =>
    cases hs
    rfl

/-- Declaring something adds one entry to the declarations. -/
theorem scope?_declaring (h : Declarable b.kind body) (short : String) (name : QualName) (id : Id) :
    (b.declaring short name id body.kind).scope? =
      b.scope?.map fun s ↦ { s with declared := s.declared.insert short name } := by
  cases b with
  | package => cases h
  | component c => cases hkind : body.kind <;> rfl
  | cls c => rfl
  | function f => cases h

end Body

namespace Namespace

variable {project : Project} {ns ns' : Namespace} {id : Id} {e : Entity}

/-- An entity without declarations. -/
theorem declaresIn_of_declared_eq (h : ∀ s, e.body.scope? = some s → s.declared = ∅) :
    e.DeclaresIn ns := by
  intro s hs short q hq
  rw [h s hs] at hq
  simp at hq

/-- What is declared stays while building goes on. -/
theorem BuildStep.declaresIn_mono (hstep : BuildStep project ns ns') (htidy : ns.Tidy)
    (h : e.DeclaresIn ns) : e.DeclaresIn ns' := by
  intro s hs short q hq
  obtain ⟨hname, target, body, hbody, htarget⟩ := h s hs short q hq
  refine ⟨hname, target, body, hbody, ?_⟩
  rcases hstep.hasEntity htidy htarget with htarget | ⟨-, hkind, -⟩
  · exact htarget
  · exact absurd hkind hbody.not_container

/-- A step of building keeps what is declared in the namespace. -/
theorem BuildStep.declaresIn (hstep : BuildStep project ns ns') (htidy : ns.Tidy)
    (h : ∀ id e, ns.get? id = some e → e.DeclaresIn ns) :
    ∀ id e, ns'.get? id = some e → e.DeclaresIn ns' := by
  refine hstep.forall_entity (fun ns e ↦ e.DeclaresIn ns) htidy
    (fun _ ↦ hstep.declaresIn_mono htidy) ?_ ?_ ?_ h
  · rintro i q b (hb | ⟨kind, hb⟩)
    · exact declaresIn_of_declared_eq fun s hs ↦ hb.declared_eq hs
    · exact declaresIn_of_declared_eq fun s hs ↦ hb.declared_eq hs
  · -- the new entry names the new entity, the others were there
    intro e id body short hbody hid he s hs short' q hq
    rw [Body.scope?_declaring hbody] at hs
    obtain ⟨old, hscope, rfl⟩ := Option.map_eq_some_iff.1 hs
    rw [getElem?_insert_ite] at hq
    show _ ∧ ∃ target b, Body.Declarable (Body.declaring _ _ _ _ e.body).kind b ∧ _
    rw [Body.kind_declaring]
    split at hq
    · next hshort =>
      cases hq
      exact ⟨by rw [hshort], id, body, hbody, hid⟩
    · exact he old hscope short' q hq
  · intro e f he
    exact he.congr rfl (Body.kind_mapChildren _ _) (Body.scope?_mapChildren _ _)

/-! ### All names -/

/-- A name is that of an entity that is there. -/
def Live (ns : Namespace) (q : QualName) : Prop :=
  ∃ id kind, ns.lookup q = some id ∧ ns.HasEntity id kind q

/-- The names in all tables lead to entities. -/
structure Named (ns : Namespace) : Prop extends Tidy ns where
  declared : ∀ id e, ns.get? id = some e → e.DeclaresIn ns
  imported : ∀ id name q, ns.imported? id name = some q → (ns.lookup q).isSome

/-- In a consistent namespace a name that is found is that of an entity. -/
theorem Consistent.live (h : ns.Consistent) {q : QualName} (hq : (ns.lookup q).isSome) :
    ns.Live q := by
  obtain ⟨id, hid⟩ := Option.isSome_iff_exists.1 hq
  obtain ⟨e, he, hname⟩ := h.exists_of_lookup q id hid
  exact ⟨id, e.kind, hid, e, he, rfl, hname⟩

/-- What is built has only names of what is there. -/
theorem named_build (h : project.build = .ok ns) : ns.Named := by
  have hsound := sound_build h
  refine ⟨hsound.toTidy, ?_, fun id name q hq ↦ ?_⟩
  · exact build_induction (fun ns ↦ ∀ id e, ns.get? id = some e → e.DeclaresIn ns) h
      (fun id e he ↦ by simp [get?] at he) fun ns ns' htidy _ hstep ↦ hstep.declaresIn htidy
  · rw [hsound.noImports id name] at hq
    cases hq

/-- Outlines show what is declared. -/
theorem SameOutline.declaresIn (h : ns.SameOutline ns')
    (hns : ∀ id e, ns.get? id = some e → e.DeclaresIn ns) :
    ∀ id e, ns'.get? id = some e → e.DeclaresIn ns' := by
  intro id e' he' s' hs' short q hq
  obtain ⟨e, he, houtline⟩ := h.symm.exists_get? he'
  have hdeclared : e.body.scope?.map Scope.declared = some s'.declared := by
    rw [← Option.map_some, ← hs']
    exact congrArg Outline.declared? houtline
  have hkind : e.kind = e'.kind := congrArg Outline.kind houtline
  have hname : e.qualName = e'.qualName := congrArg Outline.qualName houtline
  obtain ⟨s, hs, hsame⟩ := Option.map_eq_some_iff.1 hdeclared
  obtain ⟨hq, target, body, hbody, htarget⟩ := hns id e he s hs short q (hsame ▸ hq)
  exact ⟨hname ▸ hq, target, body, hkind ▸ hbody, h.hasEntity htarget⟩

/-- Whether the names in tables lead to entities is seen in scopes. -/
theorem SameScopes.named (h : ns.SameScopes ns') (hns : ns.Named) : ns'.Named where
  toTidy := h.tidy hns.toTidy
  declared := h.declaresIn hns.declared
  imported id name q hq := by
    rw [h.lookup]
    rw [h.imported] at hq
    exact hns.imported id name q hq

namespace Named

variable {s : Scope} {name : String} {q : QualName}

theorem isSome_lookup_declared (h : ns.Named) (hs : ns.scope? id = some s)
    (hq : s.declared[name]? = some q) : (ns.lookup q).isSome := by
  obtain ⟨e, he, hscope⟩ := Option.bind_eq_some_iff.1 hs
  obtain ⟨-, target, body, -, htarget⟩ := h.declared id e he s hscope name q hq
  rw [htarget.lookup h.toConsistent]
  rfl

/-- What a scope refers a name to is there. -/
theorem isSome_lookup (h : ns.Named) (hs : ns.scope? id = some s)
    (hq : s.declared[name]? = some q ∨ s.imported[name]? = some q) : (ns.lookup q).isSome := by
  rcases hq with hq | hq
  · exact h.isSome_lookup_declared hs hq
  · refine h.imported id name q ?_
    rw [imported?, hs]
    exact hq

/-- What a scope knows a name as was declared or imported there. -/
theorem find?_eq_some {s : Scope} (hq : s.find? name = some q) :
    s.declared[name]? = some q ∨ s.imported[name]? = some q := by
  unfold Scope.find? at hq
  cases hd : s.declared[name]? with
  | none => exact .inr (by simpa [hd] using hq)
  | some d => exact .inl (by simpa [hd] using hq)

/-- A look-up fails only where no scope on the way knows the name. -/
theorem resolveName_eq_none_iff (h : ns.Named) (fromId : Id) :
    ns.resolveName fromId name = none ↔
      ∀ id ∈ ns.ancestors fromId, ∀ s, ns.scope? id = some s →
        s.declared[name]? = none ∧ s.imported[name]? = none := by
  have hbinding : ns.resolveName fromId name = none ↔ ns.binding? fromId name = none := by
    unfold resolveName
    refine ⟨fun hnone ↦ ?_, fun hnone ↦ by rw [hnone, Option.bind_none]⟩
    cases hq : ns.binding? fromId name with
    | none => rfl
    | some q =>
      obtain ⟨id, -, hid⟩ := List.exists_of_findSome?_eq_some hq
      obtain ⟨s, hs, hfind⟩ := Option.bind_eq_some_iff.1 hid
      have hlive := h.isSome_lookup hs (find?_eq_some hfind)
      rw [hq, Option.bind_some] at hnone
      rw [hnone] at hlive
      cases hlive
  rw [hbinding, binding?, List.findSome?_eq_none_iff]
  refine forall₂_congr fun id _ ↦ ?_
  cases ns.scope? id with
  | none => simp
  | some s => simp [Scope.find?]

/-- A class that declares a constructor is constructed by it. -/
theorem used_constructor (h : ns.Named) {e : Entity} {c : Class} {init : QualName}
    (he : ns.get? id = some e) (hbody : e.body = .cls c)
    (hinit : c.scope.declared[Calls.constructorName]? = some init) :
    init = e.qualName.child Calls.constructorName ∧
      ∃ target, ns.HasEntity target .function init ∧
        Calls.used ns id = some (target, .calls) := by
  have hscope : e.body.scope? = some c.scope := by rw [hbody]; rfl
  have hkind : e.kind = .cls := by rw [Entity.kind, hbody]; rfl
  obtain ⟨hname, target, body, hdeclarable, htarget⟩ :=
    h.declared id e he c.scope hscope Calls.constructorName init hinit
  rw [hkind] at hdeclarable
  rw [hdeclarable.kind_eq_function] at htarget
  refine ⟨hname, target, htarget, ?_⟩
  obtain ⟨_, _, _⟩ := e
  cases hbody
  simp [Calls.used, he, hinit, htarget.lookup h.toConsistent]

end Named

end Namespace

/-! ### Imported names -/

namespace Imports

variable {ns : Namespace} {v : Visit} {r : Request} {q : QualName}

/-- What an import of modules finds without an import table is there. -/
theorem isSome_lookup_of_module {clauses : List ImportClause} (hr : r ∈ moduleRequests ns clauses)
    (hq : r.known = some q) : (ns.lookup q).isSome := by
  obtain ⟨clause, -, hclause⟩ := List.mem_filterMap.1 hr
  split at hclause
  · next hkind =>
    cases hclause
    cases hq
    obtain ⟨id, hid, -⟩ := Option.bind_eq_some_iff.1 (beq_iff_eq.1 hkind)
    exact Option.isSome_iff_exists.2 ⟨id, hid⟩
  · cases hclause

/-- What a wildcard import finds without an import table is there. -/
theorem isSome_lookup_of_wildcard (h : ns.Named) {source : Id} (hr : r ∈ wildcardRequests ns source)
    (hq : r.known = some q) : (ns.lookup q).isSome := by
  unfold wildcardRequests at hr
  split at hr
  · cases hr
  · next c hc =>
    split at hr
    · obtain ⟨name, -, rfl⟩ := List.mem_map.1 hr
      exact h.isSome_lookup_declared (Namespace.scope?_of_component? hc) hq
    · obtain ⟨e, he, rfl⟩ := List.mem_map.1 hr
      obtain ⟨member, -, hget⟩ := List.mem_filterMap.1 (List.mem_filter.1 he).1
      cases hq
      exact Option.isSome_iff_exists.2 ⟨_, h.lookup_of_get? member e hget⟩

/-- What an import of a name finds without an import table is there. -/
theorem isSome_lookup_of_clause {sourceName : QualName} {clause : ImportClause}
    (hr : clauseRequest ns sourceName clause = some r) (hq : r.known = some q) :
    (ns.lookup q).isSome := by
  unfold clauseRequest at hr
  split at hr
  · next hinside =>
    cases hr
    cases hq
    exact hinside
  · obtain ⟨id, -, rfl⟩ := Option.map_eq_some_iff.1 hr
    cases hq

/-- What an import statement finds without an import table is there. -/
theorem isSome_lookup_of_known (h : ns.Named) (hr : r ∈ requests ns v) (hq : r.known = some q) :
    (ns.lookup q).isSome := by
  rcases mem_requests_cases hr with ⟨clauses, -, hmodule⟩ |
    ⟨source, name, -, -, ⟨-, id, -, hwildcard⟩ | ⟨-, clause, -, -, hclause⟩⟩
  · exact isSome_lookup_of_module hmodule hq
  · exact isSome_lookup_of_wildcard h hwildcard hq
  · exact isSome_lookup_of_clause hclause hq

/-- Importing keeps all tables to names of what is there. -/
theorem named_run (visits : List Visit) {p : Progress} (h : p.ns.Named) :
    (run visits p).ns.Named := by
  have hsame : p.ns.SameOutline (run visits p).ns := .of_frame (grows_run visits p).frame
  refine ⟨hsame.tidy h.toTidy, hsame.declaresIn h.declared, fun id name q hq ↦ ?_⟩
  rw [hsame.lookup]
  refine @run_sound (fun _ _ q ↦ (p.ns.lookup q).isSome) visits p (fun w _ r hr q hknown ↦ ?_)
    h.imported id name q hq
  rcases hknown with hknown | ⟨e, -, he⟩
  · exact isSome_lookup_of_known h hr hknown
  · exact he

end Imports

/-! ### The namespaces of an analysis -/

namespace Project.Reaches

variable {project : Project} {ns : Namespace}

/-- In all namespaces that passes lead to, the names in tables lead to entities. -/
theorem named (h : project.Reaches ns) : ns.Named := by
  induction h with
  | build h => exact Namespace.named_build h
  | @repeated p _ r component file ih =>
    cases r with
    | exports => exact (Exports.sameScopes_pass component file p).named ih
    | imports => exact Imports.named_run _ ih
  | @relating p _ r component file ih => exact (r.sameScopes_pass component file p).named ih

end Project.Reaches

/-- **No name dangles.** In the namespace that was built, and after any further passes over the
files, each name that a scope declares or imports is that of an entity that is there. So a name
cannot be resolved exactly if no scope on the way outward knows it, and a call of a class that
declares a constructor uses this constructor. -/
theorem names_never_dangle {project : Project} {ns : Namespace} (h : project.Reaches ns) :
    project.RunsStay project.Reaches ns ∧
    (∀ id s, ns.scope? id = some s → ∀ (name : String) q,
      s.declared[name]? = some q ∨ s.imported[name]? = some q → ns.Live q) ∧
    (∀ fromId (name : String), ns.resolveName fromId name = none ↔
      ∀ id ∈ ns.ancestors fromId, ∀ s, ns.scope? id = some s →
        s.declared[name]? = none ∧ s.imported[name]? = none) ∧
    ∀ id e c init, ns.get? id = some e → e.body = .cls c →
      c.scope.declared[Calls.constructorName]? = some init →
        init = e.qualName.child Calls.constructorName ∧
          ∃ target, ns.HasEntity target .function init ∧
            ∀ current callee name, callee.dotted = some name →
              ns.resolve current ⟨name⟩ = some id →
                Calls.target ns current callee = some (target, .calls) := by
  have hnamed := h.named
  refine ⟨h.runsStay, fun id s hs name q hq ↦ ?_,
    fun fromId name ↦ hnamed.resolveName_eq_none_iff fromId, fun id e c init he hbody hinit ↦ ?_⟩
  · exact hnamed.toConsistent.live (hnamed.isSome_lookup hs hq)
  · obtain ⟨hname, target, htarget, hused⟩ := hnamed.used_constructor he hbody hinit
    refine ⟨hname, target, htarget, fun current callee name hcallee hresolve ↦ ?_⟩
    simp [Calls.target, hcallee, hresolve, hused]

/-- A class with a constructor, imported under another name. -/
def constructedText : String :=
  "class K:\n def __init__(me):0\nfrom p import K as L\n"

/-- The statements of the module. -/
def constructedStatements : List Stmt :=
  [.classDef ⟨⟨"K", by decide⟩, [], [], []⟩
    [.funcDef ⟨⟨"__init__", by decide⟩, [], [], [⟨some ⟨"me", by decide⟩, []⟩], []⟩
      [.simple [.number "0" true]]],
    .importFrom ⟨some "p", 0, false, [⟨"K", some "L"⟩]⟩]

theorem ofText?_constructedText : Stmt.ofText? constructedText = some constructedStatements := by
  decide +kernel

/-- The namespace of the module after its imports were resolved. -/
def constructedNamespace : Namespace :=
  (Imports.pass 0 constructedStatements { ns := moduleNamespace "p" constructedStatements }).ns

/-- Passes lead to the namespace of the module with a constructor. -/
theorem reaches_constructedNamespace :
    (singleModule "p" constructedText).Reaches constructedNamespace := by
  have hbuilt := (oneModule_singleModule "p" ofText?_constructedText).build_eq (by decide +kernel)
  exact .repeated (.build hbuilt) .imports 0 constructedStatements

/-- A call of the class under its imported name uses the constructor. -/
theorem constructor_of_imported_class :
    (singleModule "p" constructedText).Reaches constructedNamespace ∧
      constructedNamespace.imported? 0 "L" = some ⟨"p.K"⟩ ∧ constructedNamespace.Live ⟨"p.K"⟩ ∧
      (∀ id ∈ constructedNamespace.ancestors 2, ∀ s, constructedNamespace.scope? id = some s →
        s.declared["E"]? = none ∧ s.imported["E"]? = none) ∧
      ∃ target, constructedNamespace.HasEntity target .function ⟨"p.K.__init__"⟩ ∧
        Calls.target constructedNamespace 0 (.name ⟨"L", by decide⟩) = some (target, .calls) := by
  obtain ⟨-, hlive, hresolve, hcalls⟩ := names_never_dangle reaches_constructedNamespace
  have himported : constructedNamespace.imported? 0 "L" = some ⟨"p.K"⟩ := by decide +kernel
  have hunknown : constructedNamespace.resolveName 2 "E" = none := by decide +kernel
  have hconstructor : ((constructedNamespace.class? 1).bind fun c ↦
      c.scope.declared[Calls.constructorName]?) = some ⟨"p.K.__init__"⟩ := by decide +kernel
  have hclass : constructedNamespace.resolve 0 ⟨"L"⟩ = some 1 := by decide +kernel
  obtain ⟨s, hs, hq⟩ := Option.bind_eq_some_iff.1 himported
  obtain ⟨c, hc, hinit⟩ := Option.bind_eq_some_iff.1 hconstructor
  obtain ⟨e, he, hbody⟩ := Option.bind_eq_some_iff.1 hc
  have hcls : e.body = .cls c := by
    cases hb : e.body with
    | cls c' =>
      rw [hb] at hbody
      exact congrArg Body.cls (Option.some.inj hbody)
    | package | component | function =>
      rw [hb] at hbody
      cases hbody
  obtain ⟨-, target, htarget, htargets⟩ := hcalls 1 e c _ he hcls hinit
  exact ⟨reaches_constructedNamespace, himported, hlive 0 s hs "L" _ (.inr hq),
    (hresolve 2 "E").1 hunknown, target, htarget, htargets 0 _ "L" rfl hclass⟩

end CodeAtlas
