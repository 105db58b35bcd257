import CodeAtlas.Proofs.Consistency

/-!
# Runs of the store

The store is changed by three operations: an entity is created, an entity is removed, and what an
entity holds is changed. A run applies a list of them, in any order and with any arguments, and
collects the numbers that its creations give.

## One operation

Each operation keeps the two tables in step (`Tidy.edit`). It moves the next number exactly when it
gives one, and only a creation gives one (`edit_cases`). A number below the next one that is not in
use stays out of use, since a creation only looks at the next number (`get?_edit_eq_none`).

## A run

All three facts carry over to runs by induction on the list of operations. Every run from the empty
store is tidy (`Tidy.run`). It gives the numbers from the old next number up to the new one, in
order and without a gap (`given_run`), and at most one for each creation that is asked for
(`length_given_run_le`). A number that was removed is not in use after any further operations
(`get?_run_eq_none`).

`store_after_run` collects this, and says which requests leave the store as it is: the creation of a
name that is taken, and the removal of what is not there.
-/

namespace CodeAtlas

/-- An operation on the store. -/
inductive Edit where
  | create (name : QualName) (body : Body)
  | prune (id : Id)
  | modify (id : Id) (change : Body → Body)

/-- Whether an operation asks for a new entity. -/
def Edit.isCreation : Edit → Bool
  | .create .. => true
  | _ => false

namespace Namespace

variable {ns ns' : Namespace} {id i : Id} {name q : QualName} {body : Body}

/-- One operation: the number that it gives, if it creates an entity, and the store after it. A
creation that is refused leaves the store as it is. -/
def edit (ns : Namespace) : Edit → Option Id × Namespace
  | .create name body =>
    match ns.create name body with
    | none => (none, ns)
    | some (id, ns') => (some id, ns')
  | .prune id => (none, ns.prune id)
  | .modify id change => (none, ns.modify id change)

/-- A list of operations: the numbers that they give, in order, and the store after them. -/
def run (ns : Namespace) : List Edit → List Id × Namespace
  | [] => ([], ns)
  | e :: edits =>
    let (given, ns') := ns.edit e
    let (later, ns'') := ns'.run edits
    (given.toList ++ later, ns'')

/-! ### One operation -/

/-- Removing what is not there changes nothing. -/
theorem prune_eq_self (h : ns.get? id = none) : ns.prune id = ns := by
  unfold prune
  rw [h]

/-- What an operation gives, and where it leaves the next number: a number is given only by a
creation, and then it is the next one. -/
theorem edit_cases (ns : Namespace) (e : Edit) :
    ((ns.edit e).1 = none ∧ (ns.edit e).2.nextId = ns.nextId) ∨
      (e.isCreation ∧ (ns.edit e).1 = some ns.nextId ∧
        (ns.edit e).2.nextId = ns.nextId + 1) := by
  cases e with
  | create name body =>
    cases hcreate : ns.create name body with
    | none => exact .inl ⟨by simp [edit, hcreate], by simp [edit, hcreate]⟩
    | some created =>
      obtain ⟨id, ns'⟩ := created
      have hid : id = ns.nextId := (create_eq_some_iff.1 hcreate).2.1
      have hnext := nextId_create hcreate
      subst hid
      exact .inr ⟨rfl, by simp [edit, hcreate], by simp [edit, hcreate, hnext]⟩
  | prune id => exact .inl ⟨rfl, nextId_prune⟩
  | modify id change => exact .inl ⟨rfl, nextId_modify⟩

/-- One operation keeps the two tables in step. -/
theorem Tidy.edit (h : ns.Tidy) (e : Edit) : (ns.edit e).2.Tidy := by
  cases e with
  | create name body =>
    cases hcreate : ns.create name body with
    | none => simpa [Namespace.edit, hcreate] using h
    | some created => simpa [Namespace.edit, hcreate] using h.create hcreate
  | prune id => exact h.prune
  | modify id change => exact h.modify

/-- A number that was given and is not in use stays out of use. -/
theorem get?_edit_eq_none (hlt : i < ns.nextId) (hgone : ns.get? i = none) (e : Edit) :
    (ns.edit e).2.get? i = none := by
  cases e with
  | create name body =>
    cases hcreate : ns.create name body with
    | none => simpa [edit, hcreate] using hgone
    | some created => simpa [edit, hcreate] using (get?_create_of_lt hcreate hlt).trans hgone
  | prune id =>
    show (ns.prune id).get? i = none
    rw [get?_prune, hgone, ite_self]
  | modify id change =>
    show (ns.modify id change).get? i = none
    rw [get?_modify]
    split
    · next hi => rw [← hi, hgone]; rfl
    · exact hgone

/-! ### A list of operations -/

@[simp]
theorem run_nil : ns.run [] = ([], ns) := rfl

@[simp]
theorem run_cons (e : Edit) (edits : List Edit) :
    ns.run (e :: edits) =
      ((ns.edit e).1.toList ++ ((ns.edit e).2.run edits).1, ((ns.edit e).2.run edits).2) := rfl

/-- A run keeps the two tables in step. -/
theorem Tidy.run (h : ns.Tidy) (edits : List Edit) : (ns.run edits).2.Tidy := by
  induction edits generalizing ns with
  | nil => exact h
  | cons e edits ih => exact ih (h.edit e)

/-- The next number does not go down in one operation. -/
theorem le_nextId_edit (ns : Namespace) (e : Edit) : ns.nextId ≤ (ns.edit e).2.nextId := by
  rcases ns.edit_cases e with ⟨-, hnext⟩ | ⟨-, -, hnext⟩
  · exact Nat.le_of_eq hnext.symm
  · exact hnext ▸ Nat.le_succ ns.nextId

/-- A number that was given and is not in use stays out of use in a run. -/
theorem get?_run_eq_none (hlt : i < ns.nextId) (hgone : ns.get? i = none) (edits : List Edit) :
    (ns.run edits).2.get? i = none := by
  induction edits generalizing ns with
  | nil => exact hgone
  | cons e edits ih =>
    exact ih (Nat.lt_of_lt_of_le hlt (ns.le_nextId_edit e)) (get?_edit_eq_none hlt hgone e)

/-- A run gives the numbers from the next one on, in order, and as many as it moves the next
number. -/
theorem given_run (ns : Namespace) (edits : List Edit) :
    (ns.run edits).1 = List.range' ns.nextId (ns.run edits).1.length ∧
      (ns.run edits).2.nextId = ns.nextId + (ns.run edits).1.length := by
  induction edits generalizing ns with
  | nil => exact ⟨rfl, rfl⟩
  | cons e edits ih =>
    obtain ⟨hgiven, hnext⟩ := ih (ns.edit e).2
    rw [run_cons]
    rcases ns.edit_cases e with ⟨hnone, hsame⟩ | ⟨-, hsome, hstep⟩
    · rw [hsame] at hgiven hnext
      simpa [hnone] using ⟨hgiven, hnext⟩
    · rw [hstep] at hgiven hnext
      rw [hsome, hnext]
      refine ⟨?_, ?_⟩
      · simpa [List.range'_succ] using hgiven
      · exact Nat.add_right_comm ns.nextId 1 _

/-- A run gives no more numbers than it asks for entities. -/
theorem length_given_run_le (ns : Namespace) (edits : List Edit) :
    (ns.run edits).1.length ≤ edits.countP Edit.isCreation := by
  induction edits generalizing ns with
  | nil => exact Nat.le_refl _
  | cons e edits ih =>
    have hle := ih (ns.edit e).2
    rw [run_cons, List.countP_cons]
    rcases ns.edit_cases e with ⟨hnone, -⟩ | ⟨hcreation, hsome, -⟩
    · rw [hnone]
      exact Nat.le_trans hle (Nat.le_add_right _ _)
    · rw [hsome, if_pos hcreation]
      simpa [Nat.add_comm] using Nat.add_le_add_right hle 1

/-! ### The store after any run -/

/-- A new name gets the next number, and the entity is found under it. -/
theorem edit_create_of_new (h : ns.lookup name = none) (body : Body) :
    (ns.edit (.create name body)).1 = some ns.nextId ∧
      (ns.edit (.create name body)).2.get? ns.nextId = some ⟨ns.nextId, name, body⟩ := by
  cases hcreate : ns.create name body with
  | none =>
    have htaken := create_eq_none_iff.1 hcreate
    rw [h] at htaken
    cases htaken
  | some created =>
    obtain ⟨id, ns'⟩ := created
    have hget := get?_create hcreate (i := id)
    obtain rfl : id = ns.nextId := (create_eq_some_iff.1 hcreate).2.1
    rw [if_pos rfl] at hget
    simpa [edit, hcreate] using hget

/-- After any operations on the empty store the two tables are mutually inverse and the numbers in
use are below the next one. The creations have given `0, 1, 2, …`, at most one for each asked for,
and a number that is removed is not in use after any further operations. A creation with a new name
succeeds; one with a name that is taken, and the removal of what is not there, leave the whole
store as it is. -/
theorem store_after_run (project : String) (edits : List Edit) :
    let given := (run { project } edits).1
    let ns := (run { project } edits).2
    (∀ q id, ns.lookup q = some id ↔ ∃ e, ns.get? id = some e ∧ e.qualName = q ∧ e.id = id) ∧
    (∀ id, (ns.get? id).isSome → id < ns.nextId) ∧
    (given = List.range ns.nextId ∧ ns.nextId ≤ edits.countP Edit.isCreation) ∧
    (∀ id, id ∈ given → ns.get? id = none → ∀ later, (ns.run later).2.get? id = none) ∧
    (∀ q body,
      (ns.lookup q = none → (ns.edit (.create q body)).1 = some ns.nextId ∧
        (ns.edit (.create q body)).2.get? ns.nextId = some ⟨ns.nextId, q, body⟩) ∧
      ((ns.lookup q).isSome → ns.create q body = none ∧ (ns.edit (.create q body)).2 = ns)) ∧
    (∀ id, (ns.prune id).get? id = none ∧ (ns.get? id = none → ns.prune id = ns)) := by
  intro given ns
  have htidy : ns.Tidy := (tidy_empty project).run edits
  have hnext : ns.nextId = given.length := by
    simpa using (given_run { project } edits).2
  have hgiven : given = List.range ns.nextId := by
    rw [hnext, List.range_eq_range']
    exact (given_run { project } edits).1
  refine ⟨fun q id ↦ ⟨fun hq ↦ ?_, ?_⟩, fun id hid ↦ ?_, ⟨hgiven, ?_⟩, fun id hid hgone ↦ ?_,
    fun q body ↦ ⟨fun hq ↦ edit_create_of_new hq body, fun hq ↦ ?_⟩,
    fun id ↦ ⟨?_, prune_eq_self⟩⟩
  · obtain ⟨e, he, hname⟩ := htidy.exists_of_lookup q id hq
    exact ⟨e, he, hname, htidy.id_eq id e he⟩
  · rintro ⟨e, he, rfl, -⟩
    exact htidy.lookup_of_get? id e he
  · exact htidy.bounded id (by rwa [kind?, Option.isSome_map])
  · exact hnext ▸ length_given_run_le { project } edits
  · have hlt : id < ns.nextId := List.mem_range.1 (hgiven ▸ hid)
    exact get?_run_eq_none hlt hgone
  · have hrefused : ns.create q body = none := create_eq_none_iff.2 hq
    exact ⟨hrefused, by rw [edit, hrefused]⟩
  · rw [get?_prune, if_pos rfl]

end Namespace

end CodeAtlas
