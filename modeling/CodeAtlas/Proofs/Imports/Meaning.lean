import CodeAtlas.Proofs.Imports.Traversal

/-!
# What imports mean

Which names the import statements of a project make known in its scopes is said here without
reference to files, order or repetition: `Importable` is the least set of scopes and names that is
closed under the statements, and `Refers` the least relation that also follows what the names refer
to. There is one rule for each way in which a statement can find a name, six in all.

## Statements and requests

The requests of the visits are what the statements ask for. In one direction, each rule is a request
that is made by a statement (`Asks`), so closed tables have all importable names
(`Closed.of_importable`). In the other, a name refers to what answers a request for it
(`refers_of_mem_requests`), so tables that hold nothing else hold nothing else after a traversal.

## Names with several meanings

A name may be imported more than once in a scope, and then refers to several things. Which of them
is bound can depend on the order of the files and on how often they were traversed: the loop watches
the number of open requests and not the tables. So what is proved of import resolution is that the
names that are bound are the importable ones, and that each is bound to something that it refers to.
-/

namespace CodeAtlas

namespace Imports

/-! ### Statements -/

section Statements

variable (ns : Namespace) (visits : List Visit)

/-- `import …` stands in a scope, with the clause among its clauses. -/
def ImportsModule (scope : Id) (clause : ImportClause) : Prop :=
  ∃ v ∈ visits, ∃ clauses, v.site = .importModules clauses ∧
    v.scopes.current = scope ∧ clause ∈ clauses

/-- `from b import …` stands in a scope, with the clause among its clauses; the clause is not one
for the export list. -/
def ImportsName (scope : Id) (b : QualName) (clause : ImportClause) : Prop :=
  ∃ v ∈ visits, ∃ source, v.site = .importFrom source ∧ v.scopes.current = scope ∧
    source.wildcard = false ∧
    ns.importSource v.scopes.component source.path source.level = some b ∧
    clause ∈ source.clauses ∧ clause.name ≠ exportVariable

/-- `from b import *` stands in a scope. -/
def ImportsAll (scope : Id) (b : QualName) : Prop :=
  ∃ v ∈ visits, ∃ source, v.site = .importFrom source ∧ v.scopes.current = scope ∧
    source.wildcard = true ∧
    ns.importSource v.scopes.component source.path source.level = some b

/-- The names that import statements make known in scopes. -/
inductive Importable : Id → String → Prop
  /-- `import q [as n]`, where `q` is a component. -/
  | component {scope clause id} (h : ImportsModule visits scope clause)
      (hlookup : ns.lookup ⟨clause.name⟩ = some id) (hkind : ns.kind? id = some .component) :
      Importable scope clause.binding
  /-- `from b import x [as n]`, where `b.x` is an entity. -/
  | entity {scope b clause id} (h : ImportsName ns visits scope b clause)
      (hlookup : ns.lookup (b.child clause.name) = some id) : Importable scope clause.binding
  /-- `from b import x [as n]`, where `b` is an entity that imports `x`. -/
  | forwarded {scope b clause id} (h : ImportsName ns visits scope b clause)
      (hlookup : ns.lookup b = some id) (himport : Importable id clause.name) :
      Importable scope clause.binding
  /-- `from b import *`, where `b` lists a name and declares it. -/
  | declared {scope b id c names name} (h : ImportsAll ns visits scope b)
      (hlookup : ns.lookup b = some id) (hcomponent : ns.component? id = some c)
      (hexports : c.exports = some names) (hname : name ∈ names)
      (hdeclared : name ∈ c.scope.declared) : Importable scope name
  /-- `from b import *`, where `b` lists a name and imports it. -/
  | reexported {scope b id c names name} (h : ImportsAll ns visits scope b)
      (hlookup : ns.lookup b = some id) (hcomponent : ns.component? id = some c)
      (hexports : c.exports = some names) (hname : name ∈ names)
      (himport : Importable id name) : Importable scope name
  /-- `from b import *`, where `b` lists nothing, of a class or function without underscore. -/
  | unlisted {scope b id c member e} (h : ImportsAll ns visits scope b)
      (hlookup : ns.lookup b = some id) (hcomponent : ns.component? id = some c)
      (hexports : c.exports = none) (hmember : member ∈ c.classes ∨ member ∈ c.functions)
      (hentity : ns.get? member = some e) (hpublic : isPrivate e.name = false) :
      Importable scope e.name

/-- What the names that import statements make known may refer to. -/
inductive Refers : Id → String → QualName → Prop
  | component {scope clause id} (h : ImportsModule visits scope clause)
      (hlookup : ns.lookup ⟨clause.name⟩ = some id) (hkind : ns.kind? id = some .component) :
      Refers scope clause.binding ⟨clause.name⟩
  | entity {scope b clause id} (h : ImportsName ns visits scope b clause)
      (hlookup : ns.lookup (b.child clause.name) = some id) :
      Refers scope clause.binding (b.child clause.name)
  /-- An entity comes first, so what is forwarded is not one. -/
  | forwarded {scope b clause id q} (h : ImportsName ns visits scope b clause)
      (hnone : ns.lookup (b.child clause.name) = none) (hlookup : ns.lookup b = some id)
      (himport : Refers id clause.name q) : Refers scope clause.binding q
  | declared {scope b id c names name q} (h : ImportsAll ns visits scope b)
      (hlookup : ns.lookup b = some id) (hcomponent : ns.component? id = some c)
      (hexports : c.exports = some names) (hname : name ∈ names)
      (hdeclared : c.scope.declared[name]? = some q) : Refers scope name q
  | reexported {scope b id c names name q} (h : ImportsAll ns visits scope b)
      (hlookup : ns.lookup b = some id) (hcomponent : ns.component? id = some c)
      (hexports : c.exports = some names) (hname : name ∈ names)
      (himport : Refers id name q) : Refers scope name q
  | unlisted {scope b id c member e} (h : ImportsAll ns visits scope b)
      (hlookup : ns.lookup b = some id) (hcomponent : ns.component? id = some c)
      (hexports : c.exports = none) (hmember : member ∈ c.classes ∨ member ∈ c.functions)
      (hentity : ns.get? member = some e) (hpublic : isPrivate e.name = false) :
      Refers scope e.name e.qualName

end Statements

variable {project : Project} {ns ns' : Namespace} {visits : List Visit}

/-- A name that refers to something is importable. -/
theorem Refers.importable {scope : Id} {name : String} {q : QualName}
    (h : Refers ns visits scope name q) : Importable ns visits scope name := by
  induction h with
  | component h hlookup hkind => exact .component h hlookup hkind
  | entity h hlookup => exact .entity h hlookup
  | forwarded h _ hlookup _ ih => exact .forwarded h hlookup ih
  | declared h hlookup hcomponent hexports hname hdeclared =>
    refine .declared h hlookup hcomponent hexports hname ?_
    rw [Std.ExtTreeMap.mem_iff_isSome_getElem?, hdeclared]
    rfl
  | reexported h hlookup hcomponent hexports hname _ ih =>
    exact .reexported h hlookup hcomponent hexports hname ih
  | unlisted h hlookup hcomponent hexports hmember hentity hpublic =>
    exact .unlisted h hlookup hcomponent hexports hmember hentity hpublic

/-! ### Statements and requests -/

section Requests

variable {scope id : Id} {b : QualName} {clause : ImportClause} {r : Request} {q : QualName}

/-- A request is made by a statement in a scope. -/
def Asks (ns : Namespace) (visits : List Visit) (scope : Id) (r : Request) : Prop :=
  ∃ v ∈ visits, v.scopes.current = scope ∧ r ∈ requests ns v

/-- An import of a module asks for the component with the name of the module. -/
theorem ImportsModule.asks (h : ImportsModule visits scope clause)
    (hlookup : ns.lookup ⟨clause.name⟩ = some id) (hkind : ns.kind? id = some .component) :
    Asks ns visits scope { name := clause.binding, known := some ⟨clause.name⟩ } := by
  obtain ⟨v, hv, clauses, hsite, rfl, hclause⟩ := h
  refine ⟨v, hv, rfl, ?_⟩
  rw [requests, hsite]
  refine List.mem_filterMap.2 ⟨clause, hclause, if_pos ?_⟩
  rw [hlookup, Option.bind_some, hkind]
  rfl

/-- An import of a name makes the request of its clause. -/
theorem ImportsName.asks (h : ImportsName ns visits scope b clause)
    (hr : clauseRequest ns b clause = some r) : Asks ns visits scope r := by
  obtain ⟨v, hv, source, hsite, rfl, hwild, hb, hclause, hname⟩ := h
  refine ⟨v, hv, rfl, ?_⟩
  have hkept : clause ∈ source.clauses.filter (·.name != exportVariable) :=
    List.mem_filter.2 ⟨hclause, by simpa using hname⟩
  rw [requests, hsite]
  dsimp only [fromRequests]
  rw [hb]
  dsimp only
  rw [hwild, if_neg Bool.false_ne_true]
  exact List.mem_filterMap.2 ⟨clause, hkept, hr⟩

/-- A wildcard import makes the requests for the names of its module. -/
theorem ImportsAll.asks (h : ImportsAll ns visits scope b) (hlookup : ns.lookup b = some id)
    (hr : r ∈ wildcardRequests ns id) : Asks ns visits scope r := by
  obtain ⟨v, hv, source, hsite, rfl, hwild, hb⟩ := h
  refine ⟨v, hv, rfl, ?_⟩
  rw [requests, hsite]
  dsimp only [fromRequests]
  rw [hb]
  dsimp only
  rw [if_pos hwild, hlookup]
  exact hr

/-- A clause for an entity asks for the entity. -/
theorem clauseRequest_of_isSome (h : (ns.lookup (b.child clause.name)).isSome) :
    clauseRequest ns b clause =
      some { name := clause.binding, known := some (b.child clause.name) } :=
  if_pos h

/-- A wildcard import of a module with an export list asks for the names in it. -/
theorem mem_wildcardRequests {c : Component} {names : List String} {name : String}
    (hcomponent : ns.component? id = some c) (hexports : c.exports = some names)
    (hname : name ∈ names) :
    ⟨name, some (id, name), c.scope.declared[name]?⟩ ∈ wildcardRequests ns id := by
  rw [wildcardRequests, hcomponent]
  dsimp only
  rw [hexports]
  exact List.mem_map.2 ⟨name, hname, rfl⟩

/-- A wildcard import of a module without export list asks for its public entities. -/
theorem mem_wildcardRequests_public {c : Component} {member : Id} {e : Entity}
    (hcomponent : ns.component? id = some c) (hexports : c.exports = none)
    (hmember : member ∈ c.classes ∨ member ∈ c.functions) (hentity : ns.get? member = some e)
    (hpublic : isPrivate e.name = false) :
    { name := e.name, known := some e.qualName } ∈ wildcardRequests ns id := by
  rw [wildcardRequests, hcomponent]
  dsimp only
  rw [hexports]
  refine List.mem_map.2 ⟨e, List.mem_filter.2 ⟨List.mem_filterMap.2 ⟨member, ?_, hentity⟩, ?_⟩, rfl⟩
  · simpa using hmember
  · simp [hpublic]

/-- A name refers to what answers the request of a clause for it. -/
theorem ImportsName.refers (h : ImportsName ns visits scope b clause)
    (hr : clauseRequest ns b clause = some r)
    (hq : r.known = some q ∨ ∃ e, r.entry = some e ∧ Refers ns visits e.1 e.2 q) :
    Refers ns visits scope r.name q := by
  unfold clauseRequest at hr
  cases hinside : ns.lookup (b.child clause.name) with
  | some id =>
    rw [hinside, if_pos Option.isSome_some] at hr
    cases hr
    rcases hq with hknown | ⟨e, hentry, -⟩
    · cases hknown
      exact .entity h hinside
    · cases hentry
  | none =>
    rw [hinside, Option.isSome_none, if_neg Bool.false_ne_true] at hr
    obtain ⟨id, hlookup, rfl⟩ := Option.map_eq_some_iff.1 hr
    rcases hq with hknown | ⟨e, hentry, himport⟩
    · cases hknown
    · cases hentry
      exact .forwarded h hinside hlookup himport

/-- A name refers to what answers the request of a wildcard import for it. -/
theorem ImportsAll.refers (h : ImportsAll ns visits scope b) (hlookup : ns.lookup b = some id)
    (hr : r ∈ wildcardRequests ns id)
    (hq : r.known = some q ∨ ∃ e, r.entry = some e ∧ Refers ns visits e.1 e.2 q) :
    Refers ns visits scope r.name q := by
  unfold wildcardRequests at hr
  cases hcomponent : ns.component? id with
  | none =>
    rw [hcomponent] at hr
    cases hr
  | some c =>
    rw [hcomponent] at hr
    dsimp only at hr
    cases hexports : c.exports with
    | some names =>
      rw [hexports] at hr
      obtain ⟨name, hname, rfl⟩ := List.mem_map.1 hr
      rcases hq with hdeclared | ⟨e, hentry, himport⟩
      · exact .declared h hlookup hcomponent hexports hname hdeclared
      · cases hentry
        exact .reexported h hlookup hcomponent hexports hname himport
    | none =>
      rw [hexports] at hr
      obtain ⟨e, he, rfl⟩ := List.mem_map.1 hr
      obtain ⟨hmem, hpublic⟩ := List.mem_filter.1 he
      obtain ⟨member, hmember, hentity⟩ := List.mem_filterMap.1 hmem
      rcases hq with hknown | ⟨e, hentry, -⟩
      · cases hknown
        exact .unlisted h hlookup hcomponent hexports (by simpa using hmember) hentity
          (by simpa using hpublic)
      · cases hentry

/-- **What requests stand for.** A name refers to what answers a request for it. -/
theorem refers_of_mem_requests {v : Visit} (hv : v ∈ visits) (hr : r ∈ requests ns v)
    (hq : r.known = some q ∨ ∃ e, r.entry = some e ∧ Refers ns visits e.1 e.2 q) :
    Refers ns visits v.scopes.current r.name q := by
  rcases mem_requests_cases hr with ⟨clauses, hsite, hmodule⟩ | ⟨source, b, hsite, hb, hfrom⟩
  · obtain ⟨clause, hclause, hmade⟩ := List.mem_filterMap.1 hmodule
    split at hmade
    · next hcomponent =>
      cases hmade
      obtain ⟨id, hlookup, hkind⟩ := Option.bind_eq_some_iff.1 (eq_of_beq hcomponent)
      rcases hq with hknown | ⟨e, hentry, -⟩
      · cases hknown
        exact .component ⟨v, hv, clauses, hsite, rfl, hclause⟩ hlookup hkind
      · cases hentry
    · cases hmade
  · rcases hfrom with ⟨hwild, id, hlookup, hmem⟩ | ⟨hwild, clause, hclause, hname, hmade⟩
    · exact ImportsAll.refers ⟨v, hv, source, hsite, rfl, hwild, hb⟩ hlookup hmem hq
    · have himports : ImportsName ns visits v.scopes.current b clause :=
        ⟨v, hv, source, hsite, rfl, hwild, hb, hclause, hname⟩
      exact himports.refers hmade hq

end Requests

/-! ### Closed tables hold what is importable -/

/-- Tables that are closed under the statements bind what the statements ask for. -/
theorem Closed.isSome_imported? (hclosed : Closed ns' visits)
    (hframe : ns'.withoutImports = ns.withoutImports) {scope : Id} {r : Request}
    (h : Asks ns visits scope r) (hanswer : (r.answer ns'.imported?).isSome) :
    (ns'.imported? scope r.name).isSome := by
  obtain ⟨v, hv, rfl, hr⟩ := h
  exact hclosed v hv r (by rwa [requests_congr hframe]) hanswer

/-- Closed tables bind what statements ask for and is known. -/
theorem Closed.isSome_of_known (hclosed : Closed ns' visits)
    (hframe : ns'.withoutImports = ns.withoutImports) {scope : Id} {r : Request}
    (h : Asks ns visits scope r) (hknown : r.known.isSome) :
    (ns'.imported? scope r.name).isSome :=
  hclosed.isSome_imported? hframe h (Request.isSome_answer_iff.2 (.inr hknown))

/-- Closed tables bind what statements ask for and is imported elsewhere. -/
theorem Closed.isSome_of_entry (hclosed : Closed ns' visits)
    (hframe : ns'.withoutImports = ns.withoutImports) {scope : Id} {r : Request}
    (h : Asks ns visits scope r) {e : Id × String} (he : r.entry = some e)
    (himport : (ns'.imported? e.1 e.2).isSome) : (ns'.imported? scope r.name).isSome :=
  hclosed.isSome_imported? hframe h (Request.isSome_answer_iff.2 (.inl ⟨e, he, himport⟩))

/-- **Completeness.** Closed tables bind all names that are importable, by induction on why a name
is importable: each rule is a request that the tables answer. -/
theorem Closed.of_importable (hclosed : Closed ns' visits)
    (hframe : ns'.withoutImports = ns.withoutImports) {scope : Id} {name : String}
    (h : Importable ns visits scope name) : (ns'.imported? scope name).isSome := by
  induction h with
  | component h hlookup hkind => exact hclosed.isSome_of_known hframe (h.asks hlookup hkind) rfl
  | entity h hlookup =>
    have hinside := Option.isSome_iff_exists.2 ⟨_, hlookup⟩
    exact hclosed.isSome_of_known hframe (h.asks (clauseRequest_of_isSome hinside)) rfl
  | @forwarded scope b clause id h hlookup _ ih =>
    by_cases hinside : (ns.lookup (b.child clause.name)).isSome
    · -- the module also has such an entity, which comes first
      exact hclosed.isSome_of_known hframe (h.asks (clauseRequest_of_isSome hinside)) rfl
    · have hr : clauseRequest ns b clause =
          some { name := clause.binding, entry := some (id, clause.name) } := by
        rw [clauseRequest, if_neg hinside, hlookup]
        rfl
      exact hclosed.isSome_of_entry hframe (h.asks hr) rfl ih
  | declared h hlookup hcomponent hexports hname hdeclared =>
    have hr := mem_wildcardRequests hcomponent hexports hname
    refine hclosed.isSome_of_known hframe (h.asks hlookup hr) ?_
    exact Std.ExtTreeMap.mem_iff_isSome_getElem?.1 hdeclared
  | reexported h hlookup hcomponent hexports hname _ ih =>
    have hr := mem_wildcardRequests hcomponent hexports hname
    exact hclosed.isSome_of_entry hframe (h.asks hlookup hr) rfl ih
  | unlisted h hlookup hcomponent hexports hmember hentity hpublic =>
    have hr := mem_wildcardRequests_public hcomponent hexports hmember hentity hpublic
    exact hclosed.isSome_of_known hframe (h.asks hlookup hr) rfl

end Imports

end CodeAtlas
