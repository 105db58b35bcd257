import CodeAtlas.Proofs.Store

/-!
# The two tables of a namespace

A namespace has a table of entities by number and a table of numbers by name. Three facts about them
are used everywhere, and are collected in `Tidy`.

* Numbers in use are below the next one (`Bounded`), so a creation never gives a number twice.
* The table of names is the inverse of the table of entities (`Consistent`): a name leads to a
  number exactly if the entity with this number has this name.
* Entities carry their own numbers.

Each operation on the store keeps all three, whatever its arguments are. Two of the proofs rest on a
fact about another part: creation keeps the tables inverse because the next number is not in use,
and removal does because the name that it takes away is that of the removed entity (`lookup_prune`).

## Entities

Most of what is said later is about an entity with a number, a kind and a name (`HasEntity`). Such
an entity stays when another is created, when a body is changed that keeps its kind, and when
another is removed.
-/

namespace CodeAtlas

namespace Namespace

variable {ns ns' : Namespace} {id : Id} {name q : QualName} {body : Body} {f : Body → Body}

/-! ### Numbers -/

/-- Numbers in use are below the next one. -/
def Bounded (ns : Namespace) : Prop :=
  ∀ id, (ns.kind? id).isSome → id < ns.nextId

theorem bounded_empty (project : String) : Bounded { project } := by
  intro id h
  simp [kind?, get?] at h

/-- The next number is not in use. -/
theorem Bounded.kind?_nextId (h : ns.Bounded) : ns.kind? ns.nextId = none := by
  cases hk : ns.kind? ns.nextId with
  | none => rfl
  | some k => exact absurd (h ns.nextId (by rw [hk]; rfl)) (Nat.lt_irrefl _)

/-- Creation keeps the numbers in use below the next one, which it moves. -/
theorem Bounded.create (h : ns.Bounded) (hcreate : ns.create name body = some (id, ns')) :
    ns'.Bounded := by
  intro i hi
  rw [kind?_create hcreate] at hi
  rw [nextId_create hcreate]
  split at hi
  · next heq => exact heq ▸ Nat.lt_succ_self id
  · have hid : id = ns.nextId := (create_eq_some_iff.1 hcreate).2.1
    exact hid ▸ Nat.lt_succ_of_lt (h i hi)

theorem Bounded.prune (h : ns.Bounded) : (ns.prune id).Bounded := by
  intro i hi
  rw [kind?_prune] at hi
  rw [nextId_prune]
  split at hi
  · cases hi
  · exact h i hi

theorem Bounded.modify (h : ns.Bounded) : (ns.modify id f).Bounded := by
  intro i hi
  rw [isSome_kind?_modify] at hi
  rw [nextId_modify]
  exact h i hi

/-! ### Names and numbers -/

/-- A name leads to a number exactly if the entity with this number has this name. -/
structure Consistent (ns : Namespace) : Prop where
  exists_of_lookup : ∀ q id, ns.lookup q = some id → ∃ e, ns.get? id = some e ∧ e.qualName = q
  lookup_of_get? : ∀ id e, ns.get? id = some e → ns.lookup e.qualName = some id

/-- A name that leads to a number leads to an entity. -/
theorem Consistent.isSome_get? (h : ns.Consistent) (hq : ns.lookup q = some id) :
    (ns.get? id).isSome := by
  obtain ⟨e, he, -⟩ := h.exists_of_lookup q id hq
  exact Option.isSome_iff_exists.2 ⟨e, he⟩

theorem consistent_empty (project : String) : Consistent { project } where
  exists_of_lookup q id h := by simp [lookup] at h
  lookup_of_get? id e h := by simp [get?] at h

/-- Creation keeps the tables inverse: neither the name nor the number was in use. -/
theorem Consistent.create (h : ns.Consistent) (hb : ns.Bounded)
    (hcreate : ns.create name body = some (id, ns')) : ns'.Consistent := by
  obtain ⟨hname, hid, -⟩ := create_eq_some_iff.1 hcreate
  refine ⟨fun q i hq ↦ ?_, fun i e he ↦ ?_⟩
  · rw [lookup_create hcreate] at hq
    rw [get?_create hcreate]
    split at hq
    · next hqn =>
      cases hq
      rw [if_pos rfl]
      exact ⟨_, rfl, hqn.symm⟩
    · obtain ⟨e, he, heq⟩ := h.exists_of_lookup q i hq
      have hne : i ≠ id := by
        rintro rfl
        have hfresh := hb.kind?_nextId
        rw [kind?, ← hid, he] at hfresh
        cases hfresh
      rw [if_neg hne]
      exact ⟨e, he, heq⟩
  · rw [get?_create hcreate] at he
    rw [lookup_create hcreate]
    split at he
    · next hi =>
      cases he
      rw [if_pos rfl, hi]
    · have hold := h.lookup_of_get? i e he
      have hne : e.qualName ≠ name := by
        intro heq
        rw [heq, hname] at hold
        cases hold
      rw [if_neg hne, hold]

/-- A change of a body is not seen by names, so it keeps the tables inverse. -/
theorem Consistent.modify (h : ns.Consistent) : (ns.modify id f).Consistent := by
  refine ⟨fun q i hq ↦ ?_, fun i e he ↦ ?_⟩
  · rw [lookup_modify] at hq
    obtain ⟨e, he, heq⟩ := h.exists_of_lookup q i hq
    rw [get?_modify]
    split
    · next hi =>
      rw [hi] at he
      rw [he]
      exact ⟨_, rfl, heq⟩
    · exact ⟨e, he, heq⟩
  · rw [lookup_modify]
    rw [get?_modify] at he
    split at he
    · next hi =>
      obtain ⟨old, hold, rfl⟩ := Option.map_eq_some_iff.1 he
      rw [hi]
      exact h.lookup_of_get? id old hold
    · exact h.lookup_of_get? i e he

/-- Removing an entity removes its name, and no other. -/
theorem lookup_prune (h : ns.Consistent) :
    (ns.prune id).lookup q = if ns.lookup q = some id then none else ns.lookup q := by
  unfold prune
  cases hget : ns.get? id with
  | none =>
    have hne : ns.lookup q ≠ some id := by
      intro hq
      have hsome := h.isSome_get? hq
      rw [hget] at hsome
      cases hsome
    rw [if_neg hne]
  | some e =>
    have hname := h.lookup_of_get? id e hget
    show (ns.ids.erase e.qualName)[q]? = _
    rw [getElem?_erase_ite]
    by_cases hq : q = e.qualName
    · rw [if_pos hq, hq, if_pos hname]
    · have hne : ns.lookup q ≠ some id := by
        intro hlookup
        obtain ⟨e', he', heq⟩ := h.exists_of_lookup q id hlookup
        rw [hget] at he'
        cases he'
        exact hq heq.symm
      rw [if_neg hq, if_neg hne]
      rfl

/-- Removal keeps the tables inverse. -/
theorem Consistent.prune (h : ns.Consistent) : (ns.prune id).Consistent := by
  refine ⟨fun q i hq ↦ ?_, fun i e he ↦ ?_⟩
  · rw [lookup_prune h] at hq
    split at hq
    · cases hq
    · next hne =>
      have hi : i ≠ id := fun heq ↦ hne (heq ▸ hq)
      rw [get?_prune, if_neg hi]
      exact h.exists_of_lookup q i hq
  · rw [get?_prune] at he
    split at he
    · cases he
    · next hi =>
      have hold := h.lookup_of_get? i e he
      have hne : ns.lookup e.qualName ≠ some id := by
        rw [hold]
        exact fun heq ↦ hi (Option.some.inj heq)
      rw [lookup_prune h, if_neg hne, hold]

/-! ### The store in order -/

/-- The tables are consistent, numbers in use are below the next one, and entities carry their own
numbers. -/
structure Tidy (ns : Namespace) : Prop extends Consistent ns where
  bounded : ns.Bounded
  id_eq : ∀ id e, ns.get? id = some e → e.id = id

/-- The empty namespace is tidy. -/
theorem tidy_empty (project : String) : Tidy { project } where
  toConsistent := consistent_empty project
  bounded := bounded_empty project
  id_eq id e h := by simp [get?] at h

/-- Creation keeps a namespace tidy. -/
theorem Tidy.create (h : ns.Tidy) (hcreate : ns.create name body = some (id, ns')) : ns'.Tidy where
  toConsistent := h.toConsistent.create h.bounded hcreate
  bounded := h.bounded.create hcreate
  id_eq i e he := by
    rw [get?_create hcreate] at he
    split at he
    · next hi =>
      cases he
      exact hi.symm
    · exact h.id_eq i e he

theorem Tidy.modify (h : ns.Tidy) : (ns.modify id f).Tidy where
  toConsistent := h.toConsistent.modify
  bounded := h.bounded.modify
  id_eq i e he := by
    rw [get?_modify] at he
    split at he
    · next hi =>
      obtain ⟨old, hold, rfl⟩ := Option.map_eq_some_iff.1 he
      exact hi ▸ h.id_eq id old hold
    · exact h.id_eq i e he

/-- Removal keeps a namespace tidy. -/
theorem Tidy.prune (h : ns.Tidy) : (ns.prune id).Tidy where
  toConsistent := h.toConsistent.prune
  bounded := h.bounded.prune
  id_eq i e he := by
    rw [get?_prune] at he
    split at he
    · cases he
    · exact h.id_eq i e he

/-! ### Entities by number, kind and name -/

/-- The entity with a number has this kind and this name. -/
def HasEntity (ns : Namespace) (id : Id) (kind : EntityKind) (name : QualName) : Prop :=
  ∃ e, ns.get? id = some e ∧ e.kind = kind ∧ e.qualName = name

variable {kind : EntityKind} {i : Id}

theorem HasEntity.kind? (h : ns.HasEntity id kind name) : ns.kind? id = some kind := by
  obtain ⟨e, he, rfl, -⟩ := h
  rw [Namespace.kind?, he]
  rfl

/-- An entity that has a kind has a name. -/
theorem exists_hasEntity (h : ns.kind? id = some kind) : ∃ name, ns.HasEntity id kind name := by
  obtain ⟨e, he, hkind⟩ := Option.map_eq_some_iff.1 h
  exact ⟨e.qualName, e, he, hkind, rfl⟩

/-- In a consistent namespace the name of an entity leads to its number. -/
theorem HasEntity.lookup (h : ns.HasEntity id kind name) (hc : ns.Consistent) :
    ns.lookup name = some id := by
  obtain ⟨e, he, -, rfl⟩ := h
  exact hc.lookup_of_get? id e he

/-- What is created is there, with its name and the kind of its body. -/
theorem hasEntity_create (h : ns.create name body = some (id, ns')) :
    ns'.HasEntity id body.kind name :=
  ⟨_, by rw [get?_create h, if_pos rfl], rfl, rfl⟩

/-- What is created has a number that nothing has. -/
theorem HasEntity.ne_of_create (h : ns.HasEntity i kind q) (hb : ns.Bounded)
    (hcreate : ns.create name body = some (id, ns')) : i ≠ id := by
  rintro rfl
  have hfresh := hb.kind?_nextId
  rw [← (create_eq_some_iff.1 hcreate).2.1, h.kind?] at hfresh
  cases hfresh

/-- An entity stays when another is created. -/
theorem HasEntity.create (h : ns.HasEntity i kind q) (hb : ns.Bounded)
    (hcreate : ns.create name body = some (id, ns')) : ns'.HasEntity i kind q := by
  have hne := h.ne_of_create hb hcreate
  obtain ⟨e, he, hkind, hname⟩ := h
  exact ⟨e, by rw [get?_create hcreate, if_neg hne, he], hkind, hname⟩

/-- An entity keeps its kind and its name when a body is changed that keeps its kind. -/
theorem HasEntity.modify (h : ns.HasEntity i kind q) (hf : ∀ b, (f b).kind = b.kind) :
    (ns.modify id f).HasEntity i kind q := by
  obtain ⟨e, he, hkind, hname⟩ := h
  by_cases hi : i = id
  · subst hi
    refine ⟨{ e with body := f e.body }, ?_, (hf e.body).trans hkind, hname⟩
    rw [get?_modify, if_pos rfl, he]
    rfl
  · exact ⟨e, by rw [get?_modify, if_neg hi, he], hkind, hname⟩

/-- An entity stays when another is removed. -/
theorem HasEntity.prune (h : ns.HasEntity i kind q) (hne : i ≠ id) :
    (ns.prune id).HasEntity i kind q := by
  obtain ⟨e, he, hkind, hname⟩ := h
  exact ⟨e, by rw [get?_prune, if_neg hne, he], hkind, hname⟩

end Namespace

end CodeAtlas
