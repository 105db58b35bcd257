import CodeAtlas.Proofs.Places
import CodeAtlas.Proofs.Schedules
import CodeAtlas.Proofs.SyntaxTrees

/-!
# Calls, place by place

The pass for calls sees a file as a list of visits. Here what it finds is told from the syntax tree
alone: each call node is visited exactly once (`calls_covered`), and it stands in the scope that is
entered last on the way to it through the bodies of definitions.

## What a call uses

If the callee of a call is a dotted name that resolves from the scope of the call, the call is a use
of what it resolves to, or of the constructor if that is a class which declares one (`Calls.Uses`).
The pass adds these uses and nothing else (`exists_mem_found_iff_usedIn`). Decorators, bases and
default values stand outside the definition that they belong to, so calls in them are uses by the
scope around.

That every callee which resolves has something to use is not a matter of the syntax: the constructor
that a class declares must be there, as it is in all namespaces of an analysis
(`existsUnique_uses`).

## Keys

Relations with the same ends are one in a set, whatever their kinds, so what is said of the
dependencies after the pass is said of their keys (`contains_dependencies_pass`).
-/

namespace CodeAtlas

/-! ### What a call of an entity uses -/

namespace Namespace

variable {ns : Namespace} {id current : Id}

/-- Following members ends at an entity. -/
theorem Consistent.isSome_get?_of_members (h : ns.Consistent) {names : List String} {owner : Id}
    (howner : (ns.get? owner).isSome) (hid : ns.members owner names = some id) :
    (ns.get? id).isSome := by
  induction names generalizing owner with
  | nil =>
    cases hid
    exact howner
  | cons name rest ih =>
    obtain ⟨next, hnext, hid⟩ := Option.bind_eq_some_iff.1 hid
    refine ih ?_ hid
    obtain ⟨e, -, hnext⟩ := Option.bind_eq_some_iff.1 hnext
    split at hnext
    · exact h.isSome_get? hnext
    · exact h.isSome_get? hnext

/-- A name resolves to an entity. -/
theorem Consistent.isSome_get?_of_resolve (h : ns.Consistent) {name : QualName}
    (hid : ns.resolve current name = some id) : (ns.get? id).isSome := by
  obtain ⟨⟨known, rest⟩, hknown, hid⟩ := Option.bind_eq_some_iff.1 hid
  refine h.isSome_get?_of_members ?_ hid
  obtain ⟨_, -, hfound⟩ := List.exists_of_findSome?_eq_some hknown
  obtain ⟨_, hname, heq⟩ := Option.map_eq_some_iff.1 hfound
  cases heq
  obtain ⟨_, -, hlookup⟩ := Option.bind_eq_some_iff.1 hname
  exact h.isSome_get? hlookup

end Namespace

namespace Calls

variable {ns : Namespace} {id target m : Id} {file : List Stmt} {p : Progress}
  {key : RelationKey} {v : Visit}

/-- What a call of an entity uses: the constructor of a class that declares one, and else the
entity itself. -/
inductive Uses (ns : Namespace) (id : Id) : Id → Prop
  | constructor {c : Class} {init : QualName} {target : Id} (hc : ns.class? id = some c)
      (hinit : c.scope.declared[constructorName]? = some init)
      (htarget : ns.lookup init = some target) : Uses ns id target
  | itself (h : ∀ c, ns.class? id = some c → c.scope.declared[constructorName]? = none) :
      Uses ns id id

/-- An entity that is no class with a constructor of its own stands for itself. -/
theorem uses_iff_eq (h : ∀ c, ns.class? id = some c → c.scope.declared[constructorName]? = none) :
    Uses ns id target ↔ target = id := by
  constructor
  · intro huses
    cases huses with
    | constructor hc hinit =>
      rw [h _ hc] at hinit
      cases hinit
    | itself => rfl
  · rintro rfl
    exact .itself h

/-- A class with a constructor stands for it. -/
theorem uses_iff_lookup {c : Class} {init : QualName} (hc : ns.class? id = some c)
    (hinit : c.scope.declared[constructorName]? = some init) :
    Uses ns id target ↔ ns.lookup init = some target := by
  constructor
  · intro huses
    cases huses with
    | constructor hc' hinit' htarget =>
      cases hc.symm.trans hc'
      cases hinit.symm.trans hinit'
      exact htarget
    | itself h =>
      rw [h c hc] at hinit
      cases hinit
  · exact .constructor hc hinit

/-- What the pass takes a call of an entity for. -/
theorem exists_used_iff (hlive : (ns.get? id).isSome) :
    (∃ stereotype, used ns id = some (target, stereotype)) ↔ Uses ns id target := by
  obtain ⟨⟨_, _, body⟩, he⟩ := Option.isSome_iff_exists.1 hlive
  have hclass : ns.class? id = body.class? := by
    rw [Namespace.class?, he]
    rfl
  cases body with
  | package | component | function =>
    rw [uses_iff_eq (by simp [hclass, Body.class?])]
    simp [used, he, eq_comm]
  | cls c =>
    cases hinit : c.scope.declared[constructorName]? with
    | none =>
      have hnone : ∀ c', ns.class? id = some c' →
          c'.scope.declared[constructorName]? = none := by
        intro c' hc'
        cases hclass.symm.trans hc'
        exact hinit
      rw [uses_iff_eq hnone]
      simp [used, he, hinit, eq_comm]
    | some init =>
      rw [uses_iff_lookup hclass hinit]
      simp [used, he, hinit]

/-- In the namespaces of an analysis a call of an entity uses exactly one. -/
theorem existsUnique_uses (h : ns.Named) (id : Id) : ∃! target, Uses ns id target := by
  by_cases hnone : ∀ c, ns.class? id = some c → c.scope.declared[constructorName]? = none
  · exact ⟨id, .itself hnone, fun target ↦ (uses_iff_eq hnone).1⟩
  · obtain ⟨c, hnone⟩ := not_forall.1 hnone
    obtain ⟨hc, hsome⟩ := Classical.not_imp.1 hnone
    obtain ⟨init, hinit⟩ := Option.ne_none_iff_exists'.1 hsome
    obtain ⟨target, htarget⟩ := Option.isSome_iff_exists.1
      (h.isSome_lookup_declared (Namespace.scope?_of_class? hc) hinit)
    refine ⟨target, (uses_iff_lookup hc hinit).2 htarget, fun other hother ↦ ?_⟩
    exact Option.some.inj (((uses_iff_lookup hc hinit).1 hother).symm.trans htarget)

/-- What the pass takes a call for: the use of what the callee stands for, if the callee is a dotted
name that resolves. -/
theorem exists_target_iff (hns : ns.Consistent) {current : Id} {callee : Expr} :
    (∃ stereotype, Calls.target ns current callee = some (target, stereotype)) ↔
      ∃ name id, callee.dotted = some name ∧ ns.resolve current ⟨name⟩ = some id ∧
        Uses ns id target := by
  constructor
  · rintro ⟨stereotype, htarget⟩
    obtain ⟨name, hname, htarget⟩ := Option.bind_eq_some_iff.1 htarget
    obtain ⟨id, hid, hused⟩ := Option.bind_eq_some_iff.1 htarget
    have hlive := hns.isSome_get?_of_resolve hid
    exact ⟨name, id, hname, hid, (exists_used_iff hlive).1 ⟨stereotype, hused⟩⟩
  · rintro ⟨name, id, hname, hid, huses⟩
    have hlive := hns.isSome_get?_of_resolve hid
    obtain ⟨stereotype, hused⟩ := (exists_used_iff hlive).2 huses
    refine ⟨stereotype, ?_⟩
    simp [Calls.target, hname, hid, hused]

/-! ### The uses that a file shows -/

/-- A call in the file of a component, whose callee is a dotted name that resolves from the scope of
the call, is a use of what the callee stands for by this scope. -/
inductive UsedIn (ns : Namespace) (m : Id) (file : List Stmt) : RelationKey → Prop
  | call {path : List Nat} {place : SourcePlace} {text name : String} {callee : Expr}
      {arguments : List Expr} {id target : Id}
      (hplace : (SourceNode.file file).at? path = some place)
      (hcall : place.node = .expr (.call text callee arguments))
      (hname : callee.dotted = some name)
      (hid : ns.resolve (place.scopes ns { component := m }).current ⟨name⟩ = some id)
      (htarget : Uses ns id target) :
      UsedIn ns m file ⟨(place.scopes ns { component := m }).current, target, 0⟩

/-- The call that a visit is to, as a node, with the scopes around it. -/
def call? (v : Visit) : Option (ScopeStack × SourceNode) :=
  match v.site with
  | .expr (.call text callee arguments) => some (v.scopes, .expr (.call text callee arguments))
  | _ => none

/-- A visit is to a call exactly if its site is one. -/
theorem call?_eq_some_iff {scopes : ScopeStack} {n : SourceNode} :
    call? v = some (scopes, n) ↔ v.scopes = scopes ∧
      ∃ text callee arguments, n = .expr (.call text callee arguments) ∧
        v.site = .expr (.call text callee arguments) := by
  constructor
  · intro hcall
    unfold call? at hcall
    split at hcall
    · next text callee arguments hsite =>
      cases hcall
      exact ⟨rfl, text, callee, arguments, rfl, hsite⟩
    · cases hcall
  · rintro ⟨rfl, text, callee, arguments, rfl, hsite⟩
    rw [call?, hsite]

/-- The calls are among the expressions that are visited. -/
theorem call?_eq_filter (v : Visit) : call? v = v.expr?.filter (·.2.isCall) := by
  obtain ⟨_, _, site⟩ := v
  cases site with
  | importModules | importFrom | classDef | funcDef => rfl
  | expr e =>
    cases e with
    | _ => rfl

/-- The visits to a file reach each call of it exactly once. -/
theorem exists_lists_calls (ns : Namespace) (m : Id) (file : List Stmt) :
    ∃ found, SourceNode.Lists SourceNode.isCall (SourceNode.file file).at? found ∧
      (Visit.ofFile ns {} m file).filterMap call? =
        found.map fun x ↦ x.2.seen ns { component := m } := by
  obtain ⟨found, hlists, hvisits⟩ := Visit.exists_lists_ofFile ns m file
  refine ⟨_, hlists.filter SourceNode.isCall ?_, ?_⟩
  · rintro (_ | _ | e) hcall
    · cases hcall
    · cases hcall
    · rfl
  · have hcalls : (Visit.ofFile ns {} m file).filterMap call? =
        ((Visit.ofFile ns {} m file).filterMap Visit.expr?).filter (·.2.isCall) := by
      rw [← List.filterMap_eq_filter, List.filterMap_filterMap]
      refine List.filterMap_congr fun v _ ↦ ?_
      rw [call?_eq_filter]
      cases v.expr? with
      | none => rfl
      | some seen => exact Option.filter_some
    rw [hcalls, hvisits, List.filter_map]
    rfl

/-- The uses that the pass finds at a visit. -/
theorem mem_found_iff {r : Relation} : r ∈ found ns v ↔
    ∃ text callee arguments used, v.site = .expr (.call text callee arguments) ∧
      Calls.target ns v.scopes.current callee = some used ∧
        r = .dependency v.scopes.current used.1 .uses (some used.2) := by
  obtain ⟨_, _, site⟩ := v
  cases site with
  | importModules | importFrom | classDef | funcDef => simp [found]
  | expr e =>
    cases e with
    | call text callee arguments =>
      simp only [found, List.mem_map, Option.mem_toList, Site.expr.injEq]
      constructor
      · rintro ⟨used, hused, rfl⟩
        exact ⟨text, callee, arguments, used, rfl, hused, rfl⟩
      · rintro ⟨_, _, _, used, heq, hused, rfl⟩
        cases heq
        exact ⟨used, hused, rfl⟩
    | _ => simp [found]

/-- The pass over a file adds the uses that it finds at its visits. -/
theorem contains_dependencies_pass : (pass m file p).ns.dependencies.contains key ↔
    p.ns.dependencies.contains key ∨
      ∃ v ∈ Visit.ofFile p.ns {} m file, ∃ r ∈ found p.ns v, r.toRelationKey = key := by
  have hfound : (Relating.calls.foundIn p.ns m file).filterMap Finding.relation? =
      (Visit.ofFile p.ns {} m file).flatMap (found p.ns) := by
    rw [Relating.foundIn, List.filterMap_flatMap]
    refine List.flatMap_congr fun v _ ↦ ?_
    show ((found p.ns v).map Finding.dependency).filterMap Finding.relation? = found p.ns v
    rw [List.filterMap_map]
    exact List.filterMap_some
  have hpass : pass m file p = Relating.calls.pass m file p := rfl
  rw [hpass, Relating.ns_pass, Finding.foldl_add]
  show ((_ : RelationSet).contains key ↔ _)
  rw [RelationSet.contains_foldl_insert_iff, hfound]
  simp only [List.mem_flatMap]
  refine or_congr_right ⟨?_, ?_⟩
  · rintro ⟨r, ⟨v, hv, hr⟩, hkey⟩
    exact ⟨v, hv, r, hr, hkey⟩
  · rintro ⟨v, hv, r, hr, hkey⟩
    exact ⟨r, ⟨v, hv, hr⟩, hkey⟩

/-- A visit to a call shows a use exactly if the call is one. -/
theorem exists_mem_found_iff_usedIn (hns : ns.Consistent) :
    (∃ v ∈ Visit.ofFile ns {} m file, ∃ r ∈ found ns v, r.toRelationKey = key) ↔
      UsedIn ns m file key := by
  obtain ⟨found, hlists, hvisits⟩ := exists_lists_calls ns m file
  constructor
  · rintro ⟨v, hv, r, hr, rfl⟩
    obtain ⟨text, callee, arguments, ⟨target, stereotype⟩, hsite, htarget, rfl⟩ :=
      mem_found_iff.1 hr
    have hcall : call? v = some (v.scopes, .expr (.call text callee arguments)) :=
      call?_eq_some_iff.2 ⟨rfl, text, callee, arguments, rfl, hsite⟩
    have hmem := List.mem_filterMap.2 ⟨v, hv, hcall⟩
    rw [hvisits] at hmem
    obtain ⟨⟨path, place⟩, hplace, hseen⟩ := List.mem_map.1 hmem
    obtain ⟨hscopes, hnode⟩ := Prod.mk.inj hseen
    obtain ⟨name, id, hname, hid, huses⟩ := (exists_target_iff hns).1 ⟨stereotype, htarget⟩
    rw [← hscopes] at hid ⊢
    exact .call ((hlists.mem_iff _ _).1 hplace).1 hnode hname hid huses
  · rintro ⟨hplace, hcall, hname, hid, huses⟩
    have hfound := (hlists.mem_iff _ _).2 ⟨hplace, by rw [hcall]; rfl⟩
    have hmem := List.mem_map_of_mem (f := fun x ↦ x.2.seen ns { component := m }) hfound
    rw [← hvisits] at hmem
    obtain ⟨v, hv, hseen⟩ := List.mem_filterMap.1 hmem
    obtain ⟨hscopes, _, _, _, hnode, hsite⟩ := call?_eq_some_iff.1 hseen
    cases hcall.symm.trans hnode
    rw [← hscopes] at hid ⊢
    obtain ⟨stereotype, htarget⟩ := (exists_target_iff hns).2 ⟨_, _, hname, hid, huses⟩
    exact ⟨v, hv, _, mem_found_iff.2 ⟨_, _, _, _, hsite, htarget, rfl⟩, rfl⟩

/-- **Calls are covered.** The visits to a file reach each call node of its syntax tree exactly
once, in the scopes of the definitions whose bodies enclose it. The pass over the file adds, as keys
of dependencies, exactly the uses by these scopes of what the callees stand for, for all calls whose
callee is a dotted name that resolves; and what resolves stands for exactly one entity. -/
theorem calls_covered {project : Project} {p : Progress} (h : project.Reaches p.ns) (m : Id)
    (file : List Stmt) :
    (∃ found : List (List Nat × SourcePlace),
      (found.map Prod.fst).Nodup ∧
      (∀ path place, (path, place) ∈ found ↔
        (SourceNode.file file).at? path = some place ∧ place.node.isCall) ∧
      (Visit.ofFile p.ns {} m file).filterMap call? =
        found.map fun x ↦ (x.2.scopes p.ns { component := m }, x.2.node)) ∧
    (∀ key, (pass m file p).ns.dependencies.contains key ↔
      p.ns.dependencies.contains key ∨ UsedIn p.ns m file key) ∧
    (∀ current name id, p.ns.resolve current name = some id → ∃! target, Uses p.ns id target) := by
  have hnamed := h.named
  refine ⟨?_, fun key ↦ ?_, fun _ _ id _ ↦ existsUnique_uses hnamed id⟩
  · obtain ⟨found, hlists, hvisits⟩ := exists_lists_calls p.ns m file
    exact ⟨found, hlists.nodup, hlists.mem_iff, hvisits⟩
  · rw [contains_dependencies_pass, exists_mem_found_iff_usedIn hnamed.toConsistent]

/-- Calls in a decorator, among bases, in default values and in the body of an inner function. -/
def decoratedText : String :=
  "class V:\n def __init__(v):0\n@V()\nclass Y(V()):\n def w(v,k=V()):\n  def n(o=Y()):V(Y())\n"

theorem dotFree_constructorName : '.' ∉ constructorName.toList := by decide

/-- The statements of the module. -/
def decoratedStatements : List Stmt :=
  let constructed : Expr := .call "V()" (.name ⟨"V", by decide⟩) []
  let instantiated : Expr := .call "Y()" (.name ⟨"Y", by decide⟩) []
  [.classDef ⟨⟨"V", by decide⟩, [], [], []⟩
    [.funcDef ⟨⟨constructorName, dotFree_constructorName⟩, [], [],
        [⟨some ⟨"v", by decide⟩, []⟩], []⟩
      [.simple [.number "0" true]]],
    .classDef ⟨⟨"Y", by decide⟩, [constructed], [], [constructed]⟩
      [.funcDef ⟨⟨"w", by decide⟩, [], [],
          [⟨some ⟨"v", by decide⟩, []⟩, ⟨some ⟨"k", by decide⟩, [constructed]⟩], []⟩
        [.funcDef ⟨⟨"n", by decide⟩, [], [], [⟨some ⟨"o", by decide⟩, [instantiated]⟩], []⟩
          [.simple [.call "V(Y())" (.name ⟨"V", by decide⟩) [instantiated]]]]]]

/-- The namespace of the module after its imports were resolved. -/
def decoratedNamespace : Namespace :=
  (Imports.pass 0 decoratedStatements { ns := moduleNamespace "p" decoratedStatements }).ns

theorem ofText?_decoratedText : Stmt.ofText? decoratedText = some decoratedStatements := by
  decide +kernel

/-- Passes lead to the namespace of the decorated module. -/
theorem reaches_decoratedNamespace :
    (singleModule "p" decoratedText).Reaches decoratedNamespace := by
  have hbuilt := (oneModule_singleModule "p" ofText?_decoratedText).build_eq (by decide +kernel)
  exact .repeated (.build hbuilt) .imports 0 decoratedStatements

/-- The calls outside the class are charged to the module, those in a default value to the scope
around the function, and those in the inner function to the method; a call of the class with a
constructor uses the constructor. -/
theorem calls_covered_decorated :
    (singleModule "p" decoratedText).Reaches decoratedNamespace ∧
      (∃ found : List (List Nat × SourcePlace), found.length = 6 ∧ (found.map Prod.fst).Nodup ∧
        ∀ path place, (path, place) ∈ found ↔
          (SourceNode.file decoratedStatements).at? path = some place ∧ place.node.isCall) ∧
      (∀ key ∈ [⟨0, 2, 0⟩, ⟨3, 2, 0⟩, ⟨4, 2, 0⟩, ⟨4, 3, 0⟩],
        UsedIn decoratedNamespace 0 decoratedStatements key) ∧
      ¬ UsedIn decoratedNamespace 0 decoratedStatements ⟨0, 1, 0⟩ := by
  obtain ⟨⟨found, hnodup, hmem, hvisits⟩, hkeys, -⟩ :=
    calls_covered (p := { ns := decoratedNamespace }) reaches_decoratedNamespace 0
      decoratedStatements
  have hlength : ((Visit.ofFile decoratedNamespace {} 0 decoratedStatements).filterMap
      call?).length = 6 := by decide +kernel
  have hadded : ∀ key ∈ ([⟨0, 2, 0⟩, ⟨3, 2, 0⟩, ⟨4, 2, 0⟩, ⟨4, 3, 0⟩] : List RelationKey),
      (pass 0 decoratedStatements { ns := decoratedNamespace }).ns.dependencies.contains key ∧
        ¬ decoratedNamespace.dependencies.contains key := by decide +kernel
  have hother : ¬ (pass 0 decoratedStatements
      { ns := decoratedNamespace }).ns.dependencies.contains ⟨0, 1, 0⟩ := by decide +kernel
  refine ⟨reaches_decoratedNamespace, ⟨found, ?_, hnodup, hmem⟩, fun key hkey ↦ ?_, fun hused ↦ ?_⟩
  · rw [← hlength, hvisits, List.length_map]
  · obtain ⟨hafter, hbefore⟩ := hadded key hkey
    exact ((hkeys key).1 hafter).resolve_left hbefore
  · exact hother ((hkeys _).2 (.inr hused))

end Calls

end CodeAtlas
