import CodeAtlas.Proofs.Imports.Frame

/-!
# Import statements as requests

An import statement asks for names. Each `Request` is one such question: it is answered by an entry
of an import table, where it names one, and otherwise by what is known without import tables. Which
requests a statement makes depends on the frame of the namespace only (`requests_congr`); the import
tables come in when they are answered.

## The three forms

* `import a.b` asks for components, which are known without tables (`moduleRequests`).
* `from b import *` asks for the names that `b` lists, each of which `b` may import or declare, or
  if it lists nothing for its public classes and functions (`wildcardRequests`).
* `from b import x` asks for the entity `b.x`, or if there is none for what `b` imports as `x`
  (`clauseRequest`).

## A statement answers its requests

`step_eq` is the one place where the pass is opened: a statement binds the answers to its requests
in its scope, and counts those without an answer. For each form there is a lemma that compares what
the pass does with the answers (`ofModules_eq`, `ofWildcard_eq`, `ofClauses_eq`).

## What a statement does to the tables

The last part says what a statement does to an entry of a table: what is bound stays bound
(`isSome_imported?_bind`), though perhaps to something else, and what a name is bound to was bound
before or is an answer (`imported?_bind_eq_some`).
-/

namespace CodeAtlas

namespace Imports

/-! ### Requests -/

/-- What a statement asks for under a local name: the entry of an import table, if there is such
an entry, and else what is known already. -/
structure Request where
  name : String
  entry : Option (Id × String) := none
  known : Option QualName := none

/-- Import tables as a function. -/
abbrev Tables := Id → String → Option QualName

/-- The answer to a request. -/
def Request.answer (r : Request) (tables : Tables) : Option QualName :=
  (r.entry.bind fun e ↦ tables e.1 e.2) <|> r.known

/-- A request is answered if the entry that it names is there, or else by what is known. -/
theorem Request.isSome_answer_iff {r : Request} {tables : Tables} :
    (r.answer tables).isSome ↔
      (∃ e, r.entry = some e ∧ (tables e.1 e.2).isSome) ∨ r.known.isSome := by
  unfold Request.answer
  cases r.entry <;> simp [Option.isSome_or]

/-- The answer to a request is in the entry that it names, or was known. -/
theorem Request.eq_of_answer {r : Request} {tables : Tables} {q : QualName}
    (h : r.answer tables = some q) :
    (∃ e, r.entry = some e ∧ tables e.1 e.2 = some q) ∨ r.known = some q := by
  unfold Request.answer at h
  cases he : r.entry with
  | none => exact .inr (by simpa [he] using h)
  | some e =>
    cases ht : tables e.1 e.2 with
    | none => exact .inr (by simpa [he, ht] using h)
    | some q' => exact .inl ⟨e, rfl, by simpa [he, ht] using h⟩

/-- The names that are bound when requests are answered. -/
def answers (tables : Tables) (requests : List Request) : List Binding :=
  requests.filterMap fun r ↦ (r.answer tables).map (r.name, ·)

/-- How many requests have no answer. -/
def unanswered (tables : Tables) (requests : List Request) : Nat :=
  requests.countP fun r ↦ (r.answer tables).isNone

/-- The requests of an import of modules: those that are components. -/
def moduleRequests (ns : Namespace) (clauses : List ImportClause) : List Request :=
  clauses.filterMap fun clause ↦
    if (ns.lookup ⟨clause.name⟩).bind ns.kind? == some .component then
      some { name := clause.binding, known := some ⟨clause.name⟩ }
    else none

/-- The requests of a wildcard import. -/
def wildcardRequests (ns : Namespace) (source : Id) : List Request :=
  match ns.component? source with
  | none => []
  | some c =>
    match c.exports with
    | some names => names.map fun name ↦ ⟨name, some (source, name), c.scope.declared[name]?⟩
    | none =>
      let entities := (c.classes.toList ++ c.functions.toList).filterMap ns.get?
      (entities.filter fun e ↦ !isPrivate e.name).map fun e ↦ ⟨e.name, none, some e.qualName⟩

/-- The request of a clause: an entity inside the source, or else a name that the source
imports. -/
def clauseRequest (ns : Namespace) (sourceName : QualName) (clause : ImportClause) :
    Option Request :=
  if (ns.lookup (sourceName.child clause.name)).isSome then
    some { name := clause.binding, known := some (sourceName.child clause.name) }
  else
    (ns.lookup sourceName).map fun id ↦ { name := clause.binding, entry := some (id, clause.name) }

/-- The requests of an import of names. -/
def fromRequests (ns : Namespace) (component : Id) (source : FromImport) : List Request :=
  match ns.importSource component source.path source.level with
  | none => []
  | some name =>
    if source.wildcard then
      match ns.lookup name with
      | some id => wildcardRequests ns id
      | none => []
    else (source.clauses.filter (·.name != exportVariable)).filterMap (clauseRequest ns name)

/-- The requests made at a visit. -/
def requests (ns : Namespace) (visit : Visit) : List Request :=
  match visit.site with
  | .importModules clauses => moduleRequests ns clauses
  | .importFrom source => fromRequests ns visit.scopes.component source
  | .expr _ | .classDef _ | .funcDef _ => []

variable {ns ns' : Namespace}

/-- A request is made by an import of modules, by a wildcard, or by a clause. -/
theorem mem_requests_cases {r : Request} {v : Visit} (h : r ∈ requests ns v) :
    (∃ clauses, v.site = .importModules clauses ∧ r ∈ moduleRequests ns clauses) ∨
      ∃ source name, v.site = .importFrom source ∧
        ns.importSource v.scopes.component source.path source.level = some name ∧
        ((source.wildcard = true ∧ ∃ id, ns.lookup name = some id ∧ r ∈ wildcardRequests ns id) ∨
          (source.wildcard = false ∧ ∃ clause ∈ source.clauses, clause.name ≠ exportVariable ∧
            clauseRequest ns name clause = some r)) := by
  unfold requests at h
  cases hsite : v.site with
  | expr | classDef | funcDef =>
    rw [hsite] at h
    cases h
  | importModules clauses =>
    rw [hsite] at h
    exact .inl ⟨clauses, rfl, h⟩
  | importFrom source =>
    rw [hsite] at h
    dsimp only [fromRequests] at h
    split at h
    · cases h
    · next name hname =>
      refine .inr ⟨source, name, rfl, hname, ?_⟩
      split at h
      · next hwild =>
        split at h
        · next id hlookup => exact .inl ⟨hwild, id, hlookup, h⟩
        · cases h
      · next hwild =>
        obtain ⟨clause, hkept, hmade⟩ := List.mem_filterMap.1 h
        obtain ⟨hclause, hne⟩ := List.mem_filter.1 hkept
        exact .inr ⟨Bool.eq_false_iff.2 hwild, clause, hclause, bne_iff_ne.1 hne, hmade⟩

/-! ### Requests depend on the frame only -/

theorem moduleRequests_withoutImports (clauses : List ImportClause) :
    moduleRequests ns.withoutImports clauses = moduleRequests ns clauses := by
  have hkind : ns.withoutImports.kind? = ns.kind? := funext fun _ ↦ Namespace.kind?_withoutImports
  simp only [moduleRequests, Namespace.lookup_withoutImports, hkind]

theorem wildcardRequests_withoutImports (source : Id) :
    wildcardRequests ns.withoutImports source = wildcardRequests ns source := by
  simp only [wildcardRequests, Namespace.component?_withoutImports]
  cases ns.component? source with
  | none => rfl
  | some c =>
    simp only [Option.map_some]
    cases c.exports with
    | some names => rfl
    | none =>
      -- emptying import tables changes neither an entity's name nor its qualified name
      have hget : ns.withoutImports.get? = fun id ↦ (ns.get? id).map Entity.withoutImports :=
        funext fun _ ↦ Namespace.get?_withoutImports
      simp only [hget, ← List.map_filterMap, List.filter_map, List.map_map]
      rfl

/-- What is asked at a visit depends on the frame only. -/
theorem requests_withoutImports (visit : Visit) :
    requests ns.withoutImports visit = requests ns visit := by
  unfold requests
  cases visit.site with
  | expr | classDef | funcDef => rfl
  | importModules clauses => exact moduleRequests_withoutImports clauses
  | importFrom source =>
    simp only [fromRequests, Namespace.importSource_withoutImports,
      Namespace.lookup_withoutImports, wildcardRequests_withoutImports]
    rfl

/-- Namespaces with the same frame are asked the same. -/
theorem requests_congr (h : ns'.withoutImports = ns.withoutImports) : requests ns' = requests ns :=
  funext fun visit ↦ by rw [← requests_withoutImports, h, requests_withoutImports]

/-! ### A statement answers its requests -/

/-- The answers to requests that are made one by one, each by something that may ask nothing. -/
theorem answers_filterMap {α : Type} (tables : Tables) (xs : List α)
    (request : α → Option Request) :
    answers tables (xs.filterMap request) =
      xs.filterMap fun x ↦ (request x).bind fun r ↦ (r.answer tables).map (r.name, ·) :=
  List.filterMap_filterMap

/-- An import of modules binds the answers to its requests. -/
theorem ofModules_eq (tables : Tables) (clauses : List ImportClause) :
    ofModules ns clauses = answers tables (moduleRequests ns clauses) := by
  rw [moduleRequests, answers_filterMap, ofModules]
  refine congrArg (List.filterMap · clauses) (funext fun clause ↦ ?_)
  split <;> rfl

/-- Nothing is missing where everything asked for is known already. -/
theorem unanswered_eq_zero {tables : Tables} {rs : List Request} (h : ∀ r ∈ rs, r.known.isSome) :
    unanswered tables rs = 0 := by
  refine List.countP_eq_zero.2 fun r hr ↦ ?_
  have := h r hr
  simp_all [Request.answer, Option.isSome_iff_ne_none]

/-- What an import of modules asks for is known already. -/
theorem known_of_mem_moduleRequests {clauses : List ImportClause} {r : Request}
    (h : r ∈ moduleRequests ns clauses) : r.known.isSome := by
  obtain ⟨clause, -, hclause⟩ := List.mem_filterMap.1 h
  split at hclause
  · cases hclause
    rfl
  · cases hclause

/-- A wildcard import binds the answers to its requests, and counts those without. -/
theorem ofWildcard_eq (source : Id) :
    ofWildcard ns source =
      (answers ns.imported? (wildcardRequests ns source),
        unanswered ns.imported? (wildcardRequests ns source)) := by
  unfold ofWildcard wildcardRequests
  cases hc : ns.component? source with
  | none => rfl
  | some c =>
    have htable : ∀ name, ns.imported? source name = c.scope.imported[name]? := fun name ↦ by
      rw [Namespace.imported?, Namespace.scope?_of_component? hc, Option.bind_some]
    dsimp only
    cases c.exports with
    | some names =>
      refine Prod.ext ?_ ?_
      · dsimp only
        rw [answers, List.filterMap_map, List.filterMap_map]
        refine congrArg (List.filterMap · names) (funext fun name ↦ ?_)
        simp [Request.answer, exported, htable]
      · dsimp only
        rw [unanswered, List.countP_map, List.countP_map]
        refine congrArg (List.countP · names) (funext fun name ↦ ?_)
        simp [Request.answer, exported, htable]
    | none =>
      refine Prod.ext ?_ (unanswered_eq_zero fun r hr ↦ ?_).symm
      · dsimp only
        rw [answers, List.filterMap_map, ← List.filterMap_eq_map]
        rfl
      · obtain ⟨e, -, rfl⟩ := List.mem_map.1 hr
        rfl

/-- The request of a clause has the answer that the clause finds. -/
theorem clauseRequest_answer (ns : Namespace) (sourceName : QualName) (clause : ImportClause) :
    ((clauseRequest ns sourceName clause).bind fun r ↦ (r.answer ns.imported?).map (r.name, ·)) =
      (forwarded ns sourceName (ns.lookup sourceName) clause.name).map (clause.binding, ·) := by
  simp only [clauseRequest, forwarded]
  by_cases h : (ns.lookup (sourceName.child clause.name)).isSome
  · simp [h, Request.answer]
  · cases ns.lookup sourceName <;> simp [h, Request.answer, Namespace.imported?]

/-- Names asked of something that is not there are all known already. -/
theorem known_of_clauseRequest {sourceName : QualName} {clause : ImportClause} {r : Request}
    (hsource : ns.lookup sourceName = none) (h : clauseRequest ns sourceName clause = some r) :
    r.known.isSome := by
  rw [clauseRequest, hsource] at h
  split at h
  · cases h
    rfl
  · cases h

/-- An import of names binds the answers to its requests, and counts those without if its source is
there. -/
theorem ofClauses_eq (sourceName : QualName) (clauses : List ImportClause) :
    ofClauses ns sourceName clauses =
      let kept := clauses.filter (·.name != exportVariable)
      (answers ns.imported? (kept.filterMap (clauseRequest ns sourceName)),
        unanswered ns.imported? (kept.filterMap (clauseRequest ns sourceName))) := by
  dsimp only [ofClauses]
  refine Prod.ext ?_ ?_ <;> dsimp only
  · rw [answers_filterMap, List.filterMap_map]
    exact congrArg (List.filterMap · _) (funext fun clause ↦ (clauseRequest_answer ..).symm)
  · cases hsource : ns.lookup sourceName with
    | none =>
      refine (unanswered_eq_zero fun r hr ↦ ?_).symm
      obtain ⟨clause, -, hclause⟩ := List.mem_filterMap.1 hr
      exact known_of_clauseRequest hsource hclause
    | some id =>
      rw [if_pos Option.isSome_some, unanswered, List.countP_filterMap, List.countP_map]
      refine congrArg (List.countP · _) (funext fun clause ↦ ?_)
      -- here every clause asks for something, so a missing answer is a missing request
      obtain ⟨r, hr⟩ : ∃ r, clauseRequest ns sourceName clause = some r := by
        rw [clauseRequest, hsource]
        split <;> exact ⟨_, rfl⟩
      have hanswer := clauseRequest_answer ns sourceName clause
      rw [hr, hsource, Option.bind_some] at hanswer
      rw [Function.comp_apply, ← hanswer, hr, Option.isNone_map]
      rfl

/-- An import from a module binds the answers to its requests, and counts those without. -/
theorem ofFrom_eq (component : Id) (source : FromImport) :
    ofFrom ns component source =
      (answers ns.imported? (fromRequests ns component source),
        unanswered ns.imported? (fromRequests ns component source)) := by
  unfold ofFrom fromRequests
  cases ns.importSource component source.path source.level with
  | none => rfl
  | some name =>
    dsimp only
    split
    · cases ns.lookup name with
      | none => rfl
      | some id => exact ofWildcard_eq id
    · exact ofClauses_eq name source.clauses

/-! ### What a statement does to the tables -/

theorem bind_nil (scope : Id) : bind ns scope [] = ns := by
  refine Namespace.modify_eq_self fun e _ ↦ ?_
  cases e.body <;> rfl

/-- A statement binds the answers to its requests, and counts those without. -/
theorem step_eq (p : Progress) (visit : Visit) :
    step p visit =
      { ns := bind p.ns visit.scopes.current (answers p.ns.imported? (requests p.ns visit))
        count := p.count + unanswered p.ns.imported? (requests p.ns visit) } := by
  unfold step requests
  cases visit.site with
  | expr | classDef | funcDef =>
    dsimp only [answers, unanswered]
    rw [List.filterMap_nil, bind_nil]
    rfl
  | importModules clauses =>
    dsimp only
    rw [unanswered_eq_zero fun r ↦ known_of_mem_moduleRequests, ofModules_eq p.ns.imported?]
    rfl
  | importFrom source =>
    dsimp only
    rw [ofFrom_eq]

/-- Binding names keeps the frame. -/
theorem withoutImports_bind (scope : Id) (bindings : List Binding) :
    (bind ns scope bindings).withoutImports = ns.withoutImports := by
  unfold bind Namespace.modify
  split
  · rfl
  · next e he =>
    refine congrArg (fun entities ↦ { ns with entities }) (Std.ExtTreeMap.ext_getElem? fun i ↦ ?_)
    simp only [Std.ExtTreeMap.getElem?_map, getElem?_insert_ite]
    split
    · next hi =>
      rw [hi, show ns.entities[scope]? = some e from he]
      rcases e with ⟨_, _, b⟩
      cases b <;> rfl
    · rfl

section Table

variable {table : NameTable} {bindings : List Binding} {name : String}

theorem isSome_getElem?_foldl_insert (h : table[name]?.isSome) :
    (bindings.foldl (fun table b ↦ table.insert b.1 b.2) table)[name]?.isSome := by
  induction bindings generalizing table with
  | nil => exact h
  | cons b rest ih =>
    refine ih ?_
    rw [getElem?_insert_ite]
    split
    · rfl
    · exact h

theorem isSome_getElem?_foldl_insert_of_mem {b : Binding} (h : b ∈ bindings) :
    (bindings.foldl (fun table b ↦ table.insert b.1 b.2) table)[b.1]?.isSome := by
  induction bindings generalizing table with
  | nil => cases h
  | cons c rest ih =>
    rcases List.mem_cons.1 h with rfl | h
    · have hself : (table.insert b.1 b.2)[b.1]?.isSome := by
        rw [Std.ExtTreeMap.getElem?_insert_self]
        rfl
      rw [List.foldl_cons]
      exact isSome_getElem?_foldl_insert hself
    · exact ih h

/-- What is found in a table after insertions was there before or was inserted. -/
theorem getElem?_foldl_insert_eq_some {q : QualName}
    (h : (bindings.foldl (fun table b ↦ table.insert b.1 b.2) table)[name]? = some q) :
    table[name]? = some q ∨ (name, q) ∈ bindings := by
  induction bindings generalizing table with
  | nil => exact .inl h
  | cons b rest ih =>
    rcases ih h with h | h
    · rw [getElem?_insert_ite] at h
      split at h
      · next hb =>
        cases h
        exact .inr (hb ▸ List.mem_cons_self)
      · exact .inl h
    · exact .inr (List.mem_cons_of_mem _ h)

end Table

/-- Binding names in a scope is seen in the table of that scope only. -/
theorem imported?_bind (scope id : Id) (bindings : List Binding) (name : String) :
    (bind ns scope bindings).imported? id name =
      if id = scope then
        (ns.scope? scope).bind fun s ↦
          (bindings.foldl (fun table b ↦ table.insert b.1 b.2) s.imported)[name]?
      else ns.imported? id name := by
  unfold Namespace.imported? bind
  rw [Namespace.scope?_modify_mapScope]
  split
  · rw [Option.bind_map]
    rfl
  · rfl

/-- A binding that is made is found afterwards, if the scope has a table. -/
theorem isSome_imported?_bind_of_mem {scope : Id} {bindings : List Binding} {b : Binding}
    (hscope : (ns.scope? scope).isSome) (h : b ∈ bindings) :
    ((bind ns scope bindings).imported? scope b.1).isSome := by
  obtain ⟨s, hs⟩ := Option.isSome_iff_exists.1 hscope
  rw [imported?_bind, if_pos rfl, hs]
  exact isSome_getElem?_foldl_insert_of_mem h

/-- What is bound stays bound. -/
theorem isSome_imported?_bind {scope id : Id} {bindings : List Binding} {name : String}
    (h : (ns.imported? id name).isSome) : ((bind ns scope bindings).imported? id name).isSome := by
  rw [imported?_bind]
  split
  · next hid =>
    subst hid
    unfold Namespace.imported? at h
    cases hs : ns.scope? id with
    | none => simp [hs] at h
    | some s =>
      rw [hs] at h
      exact isSome_getElem?_foldl_insert h
  · exact h

/-- What a name is bound to was bound before or is among the new bindings. -/
theorem imported?_bind_eq_some {scope id : Id} {bindings : List Binding} {name : String}
    {q : QualName} (h : (bind ns scope bindings).imported? id name = some q) :
    ns.imported? id name = some q ∨ id = scope ∧ (name, q) ∈ bindings := by
  rw [imported?_bind] at h
  split at h
  · next hid =>
    subst hid
    obtain ⟨s, hs, hq⟩ := Option.bind_eq_some_iff.1 h
    rcases getElem?_foldl_insert_eq_some hq with h | h
    · exact .inl (Option.bind_eq_some_iff.2 ⟨s, hs, h⟩)
    · exact .inr ⟨rfl, h⟩
  · exact .inl h

end Imports

end CodeAtlas
