import Mathlib.Logic.Basic
import CodeAtlas.Namespace.Basic

/-!
# The store, operation by operation

What `create`, `prune` and `modify` do to the views through which the rest of the program reads a
namespace: the entity with a number (`get?`), the number of a name (`lookup`), and the parts of an
entity (`kind?`, `scope?`, `component?`). Later modules cite these and do not unfold the operations.

## The views

There is one lemma for each operation and each view that the operation can change. It says what is
seen at every number, or at every name, after the operation in terms of what was seen before. So
`get?_create`, `get?_prune` and `get?_modify` are equations with a case for the one entity that the
operation is about, and everything else that is said of the views follows from them.

A change of a body keeps its kind in all uses of `modify`, so `kind?` and `lookup` are the two views
that only creation and removal can change. Which numbers are in use is not changed by any `modify`
(`isSome_kind?_modify`).

## Tables

The tables of the standard library compare keys by an order. The two lemmas on tables at the top
restate insertion and removal with keys compared by equality, which is how they are used.
-/

namespace CodeAtlas

/-! ### Tables -/

section Table

variable {κ ν : Type} [Ord κ] [Std.TransOrd κ] [Std.LawfulEqOrd κ] [DecidableEq κ]
  (table : Std.ExtTreeMap κ ν) (k a : κ) (v : ν)

theorem getElem?_insert_ite : (table.insert k v)[a]? = if a = k then some v else table[a]? := by
  simp only [Std.ExtTreeMap.getElem?_insert, Std.LawfulEqOrd.compare_eq_iff_eq]
  exact if_congr eq_comm rfl rfl

theorem getElem?_erase_ite : (table.erase k)[a]? = if a = k then none else table[a]? := by
  simp only [Std.ExtTreeMap.getElem?_erase, Std.LawfulEqOrd.compare_eq_iff_eq]
  exact if_congr eq_comm rfl rfl

end Table

/-! ### Changes to a body -/

namespace Body

variable (b : Body)

@[simp]
theorem kind_mapChildren (f : Containment → Containment) : (b.mapChildren f).kind = b.kind := by
  cases b <;> rfl

@[simp]
theorem kind_mapScope (f : Scope → Scope) : (b.mapScope f).kind = b.kind := by
  cases b <;> rfl

@[simp]
theorem kind_mapComponent (f : Component → Component) : (b.mapComponent f).kind = b.kind := by
  cases b <;> rfl

@[simp]
theorem kind_mapClass (f : Class → Class) : (b.mapClass f).kind = b.kind := by
  cases b <;> rfl

@[simp]
theorem scope?_mapScope (f : Scope → Scope) : (b.mapScope f).scope? = b.scope?.map f := by
  cases b <;> rfl

@[simp]
theorem scope?_mapChildren (f : Containment → Containment) :
    (b.mapChildren f).scope? = b.scope? := by
  cases b <;> rfl

/-- A body knows names exactly when it is not a package. -/
theorem isSome_scope?_iff : b.scope?.isSome ↔ b.kind ≠ .package := by
  cases b <;> simp [scope?, kind]

end Body

namespace Namespace

variable {ns ns' : Namespace} {id i : Id} {name q : QualName} {body : Body} {f : Body → Body}

/-! ### Creation -/

/-- Creation succeeds exactly for a new name, and then gives the next number. -/
theorem create_eq_some_iff :
    ns.create name body = some (id, ns') ↔
      ns.lookup name = none ∧ id = ns.nextId ∧
        ns' = { ns with
          nextId := ns.nextId + 1
          entities := ns.entities.insert ns.nextId ⟨ns.nextId, name, body⟩
          ids := ns.ids.insert name ns.nextId } := by
  unfold create lookup
  rw [Std.ExtTreeMap.contains_eq_isSome_getElem?]
  cases ns.ids[name]? with
  | none => simp [eq_comm]
  | some _ => simp

/-- Creation fails exactly for a name that is taken. -/
theorem create_eq_none_iff : ns.create name body = none ↔ (ns.lookup name).isSome := by
  unfold create lookup
  rw [Std.ExtTreeMap.contains_eq_isSome_getElem?]
  cases ns.ids[name]? with
  | none => simp
  | some _ => simp

/-- After a creation the new entity is found under its number, and all others as before. -/
theorem get?_create (h : ns.create name body = some (id, ns')) :
    ns'.get? i = if i = id then some ⟨id, name, body⟩ else ns.get? i := by
  obtain ⟨-, rfl, rfl⟩ := create_eq_some_iff.1 h
  exact getElem?_insert_ite ..

/-- After a creation the new name leads to the new number, and all others as before. -/
theorem lookup_create (h : ns.create name body = some (id, ns')) :
    ns'.lookup q = if q = name then some id else ns.lookup q := by
  obtain ⟨-, rfl, rfl⟩ := create_eq_some_iff.1 h
  exact getElem?_insert_ite ..

theorem nextId_create (h : ns.create name body = some (id, ns')) : ns'.nextId = id + 1 := by
  obtain ⟨-, rfl, rfl⟩ := create_eq_some_iff.1 h
  rfl

/-- The next number does not go down when an entity is created. -/
theorem le_nextId_create (h : ns.create name body = some (id, ns')) : ns.nextId ≤ ns'.nextId := by
  rw [nextId_create h, (create_eq_some_iff.1 h).2.1]
  exact Nat.le_succ _

/-- Entities with earlier numbers stay as they are. -/
theorem get?_create_of_lt (h : ns.create name body = some (id, ns')) (hi : i < ns.nextId) :
    ns'.get? i = ns.get? i := by
  rw [get?_create h, if_neg]
  rw [(create_eq_some_iff.1 h).2.1]
  exact Nat.ne_of_lt hi

theorem sources_create (h : ns.create name body = some (id, ns')) : ns'.sources = ns.sources := by
  obtain ⟨-, rfl, rfl⟩ := create_eq_some_iff.1 h
  rfl

/-! ### Removal -/

/-- After a removal nothing is found under the number, and all others are as before. -/
theorem get?_prune : (ns.prune id).get? i = if i = id then none else ns.get? i := by
  unfold prune
  split
  · next h =>
    split
    · next hi => rw [hi, h]
    · rfl
  · exact getElem?_erase_ite ..

@[simp]
theorem nextId_prune : (ns.prune id).nextId = ns.nextId := by
  unfold prune
  split <;> rfl

@[simp]
theorem sources_prune : (ns.prune id).sources = ns.sources := by
  unfold prune
  split <;> rfl

/-! ### Change -/

/-- A change is seen in the body of one entity, if that is there, and nowhere else. -/
theorem get?_modify :
    (ns.modify id f).get? i =
      if i = id then (ns.get? id).map fun e ↦ { e with body := f e.body } else ns.get? i := by
  unfold modify
  split
  · next h =>
    split
    · next hi => rw [hi, h]; rfl
    · rfl
  · next e h =>
    rw [h]
    exact getElem?_insert_ite ..

@[simp]
theorem lookup_modify : (ns.modify id f).lookup q = ns.lookup q := by
  unfold modify
  split <;> rfl

@[simp]
theorem nextId_modify : (ns.modify id f).nextId = ns.nextId := by
  unfold modify
  split <;> rfl

@[simp]
theorem sources_modify : (ns.modify id f).sources = ns.sources := by
  unfold modify
  split <;> rfl

/-- A change that leaves the body as it is changes nothing. -/
theorem modify_eq_self (h : ∀ e, ns.get? id = some e → f e.body = e.body) :
    ns.modify id f = ns := by
  unfold modify
  split
  · rfl
  · next e he =>
    have hsame : ns.entities.insert id { e with body := f e.body } = ns.entities := by
      refine Std.ExtTreeMap.ext_getElem? fun i ↦ ?_
      rw [h e he, getElem?_insert_ite]
      split
      · next hi => exact hi ▸ he.symm
      · rfl
    rw [hsame]

/-- A change that keeps kinds is not seen by `kind?`. -/
theorem kind?_modify (hf : ∀ b, (f b).kind = b.kind) : (ns.modify id f).kind? i = ns.kind? i := by
  unfold kind?
  rw [get?_modify]
  split
  · next hi =>
    subst hi
    cases ns.get? i with
    | none => rfl
    | some e => simp [Entity.kind, hf]
  · rfl

theorem isSome_kind?_modify : ((ns.modify id f).kind? i).isSome = (ns.kind? i).isSome := by
  unfold kind?
  rw [get?_modify, Option.isSome_map, Option.isSome_map]
  split
  · next hi => rw [Option.isSome_map, hi]
  · rfl

/-! ### Kinds and parts -/

theorem kind?_create (h : ns.create name body = some (id, ns')) :
    ns'.kind? i = if i = id then some body.kind else ns.kind? i := by
  unfold kind?
  rw [get?_create h]
  split <;> rfl

theorem kind?_prune : (ns.prune id).kind? i = if i = id then none else ns.kind? i := by
  unfold kind?
  rw [get?_prune]
  split <;> rfl

/-- An entity knows names exactly when it is there and not a package. -/
theorem isSome_scope?_iff : (ns.scope? id).isSome ↔ ∃ k, ns.kind? id = some k ∧ k ≠ .package := by
  unfold scope? kind?
  cases ns.get? id with
  | none => simp
  | some e => simpa [Entity.kind] using e.body.isSome_scope?_iff

/-- A change of a scope is seen in that scope only. -/
theorem scope?_modify_mapScope (g : Scope → Scope) :
    (ns.modify id (·.mapScope g)).scope? i =
      if i = id then (ns.scope? id).map g else ns.scope? i := by
  unfold scope?
  rw [get?_modify]
  split
  · cases ns.get? id with
    | none => rfl
    | some e => exact e.body.scope?_mapScope g
  · rfl

/-- A component knows the names of its scope. -/
theorem scope?_of_component? {c : Component} (h : ns.component? id = some c) :
    ns.scope? id = some c.scope := by
  unfold component? at h
  unfold scope?
  cases hget : ns.get? id with
  | none => simp [hget] at h
  | some e =>
    rcases e with ⟨_, _, b⟩
    cases b <;> simp_all [Body.component?, Body.scope?]

/-- A class knows the names of its scope. -/
theorem scope?_of_class? {c : Class} (h : ns.class? id = some c) : ns.scope? id = some c.scope := by
  unfold class? at h
  unfold scope?
  cases hget : ns.get? id with
  | none => simp [hget] at h
  | some e =>
    rcases e with ⟨_, _, b⟩
    cases b <;> simp_all [Body.class?, Body.scope?]

end Namespace

end CodeAtlas
