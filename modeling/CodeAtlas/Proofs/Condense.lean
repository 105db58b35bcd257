import Mathlib.Data.List.Basic
import CodeAtlas.Proofs.Containment

/-!
# What condensing records

Condensing adds relations to sets and does nothing else. It goes through the dependencies and the
associations, lifts each to a relation between siblings, and records that among the condensed
relations and with the parent of the siblings.

## Sets of relations

Seen through the relations that they hold, sets only grow, and of relations with the same key the
first one stays (`RelationSet.mem_foldl_insert`). A set that has grown is larger by the relations
whose keys are new (`RelationSet.size_eq_of_subset`).

## All relations

Since lifting does not read relation sets (`lift_withoutRelations`), it makes no difference that
they change while relations are lifted one after another. So condensing is a fold over the relations
that the dependencies and associations lift to in the namespace as it is found
(`condense_eq_foldl`). What is recorded where is then read off from the list of these relations
(`condensed_foldl`, `relationsOf?_foldl`). A second time, all of them are there already
(`condense_condense`).

## The count

The counter of the fold goes up exactly where the set of condensed relations grows, so what is
reported is by how much the set has grown (`condensedBy_add_size`), and this is the number of the
relations in it whose keys were not there before.
-/

namespace CodeAtlas

/-! ### Sets of relations -/

namespace RelationSet

variable {s s' : RelationSet} {r x : Relation} {key : RelationKey}

/-- A relation is in a set if its key is there with its kind. -/
theorem mem_toList_iff : r ∈ s.toList ↔ s.kinds[r.toRelationKey]? = some r.kind := by
  rw [toList, List.mem_map]
  constructor
  · rintro ⟨⟨key, kind⟩, hmem, rfl⟩
    exact Std.ExtTreeMap.mem_toList_iff_getElem?_eq_some.1 hmem
  · intro h
    exact ⟨(r.toRelationKey, r.kind), Std.ExtTreeMap.mem_toList_iff_getElem?_eq_some.2 h, rfl⟩

/-- A key is in a set if a relation with this key is. -/
theorem contains_iff : s.contains key ↔ ∃ r ∈ s.toList, r.toRelationKey = key := by
  rw [contains, Std.ExtTreeMap.contains_eq_isSome_getElem?, Option.isSome_iff_exists]
  constructor
  · rintro ⟨kind, hkind⟩
    exact ⟨⟨key, kind⟩, mem_toList_iff.2 hkind, rfl⟩
  · rintro ⟨r, hr, rfl⟩
    exact ⟨r.kind, mem_toList_iff.1 hr⟩

theorem contains_of_mem (h : r ∈ s.toList) : s.contains r.toRelationKey :=
  contains_iff.2 ⟨r, h, rfl⟩

/-- Relations of one set with the same key are the same. -/
theorem eq_of_key_eq (hr : r ∈ s.toList) (hx : x ∈ s.toList)
    (hkey : r.toRelationKey = x.toRelationKey) : r = x := by
  rw [mem_toList_iff] at hr hx
  rw [hkey, hx] at hr
  obtain ⟨_, _⟩ := r
  obtain ⟨_, _⟩ := x
  cases hkey
  cases hr
  rfl

/-- A relation whose key is there already changes nothing. -/
theorem insert_of_contains (h : s.contains x.toRelationKey) : s.insert x = s := by
  have hmem : x.toRelationKey ∈ s.kinds := h
  refine congrArg mk (Std.ExtTreeMap.ext_getElem? fun key ↦ ?_)
  rw [Std.ExtTreeMap.getElem?_insertIfNew, if_neg]
  exact fun ⟨_, hnot⟩ ↦ hnot hmem

/-- After a relation was added there are the old ones, and the new one if its key was new. -/
theorem mem_insert_iff :
    r ∈ (s.insert x).toList ↔ r ∈ s.toList ∨ s.contains x.toRelationKey = false ∧ r = x := by
  cases hx : s.contains x.toRelationKey with
  | true =>
    rw [insert_of_contains hx]
    exact ⟨.inl, fun h ↦ h.resolve_right fun h ↦ Bool.false_ne_true h.1.symm⟩
  | false =>
    have hnot : ¬ x.toRelationKey ∈ s.kinds := fun hmem ↦ by
      rw [show s.contains x.toRelationKey = true from hmem] at hx
      cases hx
    simp only [true_and]
    rw [mem_toList_iff, mem_toList_iff, insert, Std.ExtTreeMap.getElem?_insertIfNew]
    simp only [Std.LawfulEqOrd.compare_eq_iff_eq]
    by_cases hkey : x.toRelationKey = r.toRelationKey
    · rw [if_pos ⟨hkey, hnot⟩]
      have hnone : s.kinds[r.toRelationKey]? = none := by
        rw [← hkey]
        exact Std.ExtTreeMap.getElem?_eq_none hnot
      rw [hnone]
      obtain ⟨_, _⟩ := r
      obtain ⟨_, _⟩ := x
      cases hkey
      simp [eq_comm]
    · rw [if_neg fun h ↦ hkey h.1]
      refine ⟨.inl, fun h ↦ h.resolve_right ?_⟩
      rintro rfl
      exact hkey rfl

theorem contains_insert :
    (s.insert x).contains key = (x.toRelationKey == key || s.contains key) := by
  rw [contains, insert, Std.ExtTreeMap.contains_insertIfNew]
  congr 1
  rw [Bool.eq_iff_iff, beq_iff_eq, beq_iff_eq, Std.LawfulEqOrd.compare_eq_iff_eq]

/-- Relations that were added one by one are there, by their keys. -/
theorem contains_foldl_insert {added : List Relation} (h : x ∈ added) :
    (added.foldl insert s).contains x.toRelationKey := by
  have hkept : ∀ (rs : List Relation) {t : RelationSet}, t.contains x.toRelationKey →
      (rs.foldl insert t).contains x.toRelationKey := by
    intro rs
    induction rs with
    | nil => exact fun ht ↦ ht
    | cons y rest ih => exact fun ht ↦ ih (by rw [contains_insert, ht, Bool.or_true])
  obtain ⟨before, after, rfl⟩ := List.append_of_mem h
  rw [List.foldl_append, List.foldl_cons]
  exact hkept after (by rw [contains_insert, beq_self_eq_true, Bool.true_or])

/-- What is in a set after relations were added one by one, where relations with the same key are
the same. -/
theorem mem_foldl_insert {added : List Relation}
    (hkey : ∀ x ∈ added, ∀ y ∈ added, x.toRelationKey = y.toRelationKey → x = y) :
    r ∈ (added.foldl insert s).toList ↔
      r ∈ s.toList ∨ s.contains r.toRelationKey = false ∧ r ∈ added := by
  induction added generalizing s with
  | nil => simp
  | cons x rest ih =>
    have hrest := fun y hy z hz ↦ hkey y (List.mem_cons_of_mem _ hy) z (List.mem_cons_of_mem _ hz)
    rw [List.foldl_cons, ih hrest, mem_insert_iff, contains_insert, List.mem_cons,
      Bool.or_eq_false_iff, beq_eq_false_iff_ne]
    constructor
    · rintro ((h | ⟨hx, rfl⟩) | ⟨⟨-, hr⟩, hmem⟩)
      · exact .inl h
      · exact .inr ⟨hx, .inl rfl⟩
      · exact .inr ⟨hr, .inr hmem⟩
    · rintro (h | ⟨hr, rfl | hmem⟩)
      · exact .inl (.inl h)
      · exact .inl (.inr ⟨hr, rfl⟩)
      · -- a relation that comes later is the first one, if it has its key
        by_cases hxr : x.toRelationKey = r.toRelationKey
        · cases hkey x List.mem_cons_self r (List.mem_cons_of_mem _ hmem) hxr
          exact .inl (.inr ⟨hr, rfl⟩)
        · exact .inr ⟨⟨hxr, hr⟩, hmem⟩

/-- A set grows by one relation exactly if its key was new. -/
theorem size_insert :
    (s.insert x).size = if s.contains x.toRelationKey then s.size else s.size + 1 :=
  Std.ExtTreeMap.size_insertIfNew

/-- No relation is listed twice. -/
theorem nodup_toList (s : RelationSet) : s.toList.Nodup := by
  have hkeys : (s.kinds.toList).Pairwise fun a b ↦ ¬ compare a.1 b.1 = .eq :=
    Std.ExtTreeMap.distinct_keys_toList
  refine List.pairwise_map.2 (hkeys.imp fun hne heq ↦ hne ?_)
  rw [Std.LawfulEqOrd.compare_eq_iff_eq]
  exact congrArg Relation.toRelationKey heq

/-- A set that has grown is larger by the relations whose keys are new. -/
theorem size_eq_of_subset (h : ∀ r ∈ s.toList, r ∈ s'.toList) :
    s'.size = s.size + (s'.toList.filter fun r ↦ !s.contains r.toRelationKey).length := by
  have hsize : ∀ t : RelationSet, t.size = t.toList.length := fun t ↦ by
    rw [toList, List.length_map]
    exact Std.ExtTreeMap.length_toList.symm
  have hold : (s'.toList.filter fun r ↦ s.contains r.toRelationKey).Perm s.toList := by
    refine (List.perm_ext_iff_of_nodup (s'.nodup_toList.filter _) s.nodup_toList).2 fun r ↦ ?_
    rw [List.mem_filter]
    constructor
    · rintro ⟨hr, hcontains⟩
      obtain ⟨x, hx, hkey⟩ := contains_iff.1 hcontains
      rwa [eq_of_key_eq hr (h x hx) hkey.symm]
    · intro hr
      exact ⟨h r hr, contains_of_mem hr⟩
  rw [hsize s', hsize s, ← hold.length_eq]
  exact List.length_eq_length_filter_add _

end RelationSet

/-! ### The frame of condensing -/

/-- An entity with its relation set emptied. -/
def Entity.withoutRelations (e : Entity) : Entity :=
  { e with body := e.body.mapRelations fun _ ↦ ∅ }

namespace Namespace

variable {ns ns' : Namespace} {id : Id} {l : Lifted}

/-- All of a namespace but the condensed relations and the relation sets of entities. -/
def withoutRelations (ns : Namespace) : Namespace :=
  { ns with condensed := ∅, entities := ns.entities.map fun _ e ↦ e.withoutRelations }

/-- The relations kept with an entity, if it keeps any. -/
def relationsOf? (ns : Namespace) (id : Id) : Option RelationSet :=
  (ns.get? id).bind (·.body.relations?)

theorem get?_withoutRelations :
    ns.withoutRelations.get? id = (ns.get? id).map Entity.withoutRelations :=
  Std.ExtTreeMap.getElem?_map

@[simp]
theorem parent?_withoutRelations : ns.withoutRelations.parent? id = ns.parent? id := by
  simp only [parent?, get?_withoutRelations]
  cases ns.get? id <;> rfl

@[simp]
theorem depth_withoutRelations : ns.withoutRelations.depth id = ns.depth id := by
  simp only [depth, get?_withoutRelations]
  cases ns.get? id <;> rfl

/-- Lifting reads the parents and the depths of names. -/
theorem lift_congr (hparent : ∀ id, ns'.parent? id = ns.parent? id)
    (hdepth : ∀ id, ns'.depth id = ns.depth id) (source target : Id) :
    ns'.lift source target = ns.lift source target := by
  have hwithin : ∀ steps source target,
      ns'.liftWithin steps source target = ns.liftWithin steps source target := by
    intro steps
    induction steps with
    | zero => exact fun _ _ ↦ rfl
    | succ steps ih =>
      intro source target
      simp only [liftWithin, hparent, hdepth, ih]
  rw [lift, lift, hwithin, hdepth, hdepth]

/-- Lifting does not read the relation sets of entities. -/
theorem lift_withoutRelations (source target : Id) :
    ns.withoutRelations.lift source target = ns.lift source target :=
  lift_congr (fun _ ↦ parent?_withoutRelations) (fun _ ↦ depth_withoutRelations) source target

/-! ### One relation -/

/-- A lifted relation is recorded with its parent, and with no other entity. -/
theorem relationsOf?_addLifted :
    (ns.addLifted l).relationsOf? id =
      if id = l.parent then (ns.relationsOf? l.parent).map (·.insert l.relation)
      else ns.relationsOf? id := by
  have hbody : ∀ b : Body, (b.mapRelations (·.insert l.relation)).relations? =
      b.relations?.map (·.insert l.relation) := fun b ↦ by cases b <;> rfl
  show ((ns.modify l.parent _).get? id).bind _ = _
  rw [get?_modify]
  split
  · rw [relationsOf?]
    cases ns.get? l.parent with
    | none => rfl
    | some e => exact hbody e.body
  · rfl

/-- A lifted relation changes nothing but relations. -/
theorem withoutRelations_addLifted (ns : Namespace) (l : Lifted) :
    (ns.addLifted l).withoutRelations = ns.withoutRelations := by
  have hentities : (ns.modify l.parent (·.mapRelations (·.insert l.relation))).entities.map
      (fun _ e ↦ e.withoutRelations) = ns.entities.map fun _ e ↦ e.withoutRelations := by
    refine Std.ExtTreeMap.ext_getElem? fun i ↦ ?_
    rw [Std.ExtTreeMap.getElem?_map, Std.ExtTreeMap.getElem?_map]
    show ((ns.modify l.parent _).get? i).map _ = (ns.get? i).map _
    rw [get?_modify]
    split
    · next hi =>
      rw [hi, Option.map_map]
      refine congrArg (Option.map · (ns.get? l.parent)) (funext fun e ↦ ?_)
      obtain ⟨_, _, body⟩ := e
      cases body <;> rfl
    · rfl
  have hmodify : ns.modify l.parent (·.mapRelations (·.insert l.relation)) =
      { ns with entities := (ns.modify l.parent
          (·.mapRelations (·.insert l.relation))).entities } := by
    rw [modify]
    split <;> rfl
  unfold addLifted withoutRelations
  dsimp only
  rw [hentities, hmodify]

/-- A relation that is recorded already changes nothing. -/
theorem addLifted_eq_self (hcondensed : ns.condensed.contains l.relation.toRelationKey)
    (hparent : ∀ s, ns.relationsOf? l.parent = some s → s.contains l.relation.toRelationKey) :
    ns.addLifted l = ns := by
  have hmodify : ns.modify l.parent (·.mapRelations (·.insert l.relation)) = ns := by
    refine modify_eq_self fun e he ↦ ?_
    obtain ⟨_, _, body⟩ := e
    have hbody : ∀ s, body.relations? = some s → s.insert l.relation = s := fun s hs ↦ by
      refine RelationSet.insert_of_contains (hparent s ?_)
      rw [relationsOf?, he]
      exact hs
    cases body with
    | package p => exact congrArg (fun s ↦ Body.package { p with relations := s }) (hbody _ rfl)
    | component c => exact congrArg (fun s ↦ Body.component { c with relations := s }) (hbody _ rfl)
    | cls c => exact congrArg (fun s ↦ Body.cls { c with relations := s }) (hbody _ rfl)
    | function => rfl
  unfold addLifted
  dsimp only
  rw [hmodify, RelationSet.insert_of_contains hcondensed]

/-! ### All relations -/

/-- What the dependencies and associations lift to, one by one. -/
def lifted (ns : Namespace) : List Lifted :=
  (ns.dependencies.toList ++ ns.associations.toList).filterMap fun r ↦ ns.lift r.source r.target

/-- What relations lift to does not depend on what was condensed before. -/
theorem lifted_congr (h : ns'.withoutRelations = ns.withoutRelations) : ns'.lifted = ns.lifted := by
  have hlift : ∀ source target, ns'.lift source target = ns.lift source target := by
    intro source target
    rw [← lift_withoutRelations, h, lift_withoutRelations]
  have hdependencies : ns'.dependencies = ns.dependencies :=
    show ns'.withoutRelations.dependencies = _ from h ▸ rfl
  have hassociations : ns'.associations = ns.associations :=
    show ns'.withoutRelations.associations = _ from h ▸ rfl
  simp only [lifted, hlift, hdependencies, hassociations]

theorem withoutRelations_foldl (ls : List Lifted) :
    (ls.foldl addLifted ns).withoutRelations = ns.withoutRelations := by
  induction ls generalizing ns with
  | nil => rfl
  | cons l rest ih => exact ih.trans (withoutRelations_addLifted ns l)

/-- Lifting relations one after another, in namespaces that differ in relations only, is lifting
them all in the first. -/
theorem ns_foldl_condenseStep (rs : List Relation) {p : Progress}
    (hp : p.ns.withoutRelations = ns.withoutRelations) :
    (rs.foldl condenseStep p).ns =
      (rs.filterMap fun r ↦ ns.lift r.source r.target).foldl addLifted p.ns := by
  induction rs generalizing p with
  | nil => rfl
  | cons r rest ih =>
    have hlift : p.ns.lift r.source r.target = ns.lift r.source r.target := by
      rw [← lift_withoutRelations, hp, lift_withoutRelations]
    rw [List.foldl_cons, List.filterMap_cons, condenseStep, hlift]
    cases ns.lift r.source r.target with
    | none => exact ih hp
    | some l => exact ih ((withoutRelations_addLifted p.ns l).trans hp)

/-- Condensing records what the relations lift to in the namespace as it is found. -/
theorem condense_eq_foldl (ns : Namespace) : ns.condense = ns.lifted.foldl addLifted ns :=
  ns_foldl_condenseStep _ rfl

/-- Condensing changes nothing but relations. -/
theorem withoutRelations_condense (ns : Namespace) :
    ns.condense.withoutRelations = ns.withoutRelations := by
  rw [condense_eq_foldl]
  exact withoutRelations_foldl ns.lifted

theorem dependencies_condense (ns : Namespace) : ns.condense.dependencies = ns.dependencies := by
  show ns.condense.withoutRelations.dependencies = ns.withoutRelations.dependencies
  rw [withoutRelations_condense]

theorem associations_condense (ns : Namespace) : ns.condense.associations = ns.associations := by
  show ns.condense.withoutRelations.associations = ns.withoutRelations.associations
  rw [withoutRelations_condense]

theorem condensed_addLifted (ns : Namespace) (l : Lifted) :
    (ns.addLifted l).condensed = ns.condensed.insert l.relation := by
  unfold addLifted modify
  split <;> rfl

/-- The condensed relations after some were recorded. -/
theorem condensed_foldl (ls : List Lifted) :
    (ls.foldl addLifted ns).condensed =
      (ls.map Lifted.relation).foldl RelationSet.insert ns.condensed := by
  induction ls generalizing ns with
  | nil => rfl
  | cons l rest ih => rw [List.foldl_cons, ih, condensed_addLifted, List.map_cons, List.foldl_cons]

/-- A relation counts where the set of condensed relations grows by it. -/
theorem count_condenseStep (p : Progress) (r : Relation) :
    (condenseStep p r).count + p.ns.condensed.size =
      p.count + (condenseStep p r).ns.condensed.size := by
  unfold condenseStep
  split
  · next l _ =>
    dsimp only
    rw [condensed_addLifted, RelationSet.size_insert]
    split <;> omega
  · rfl

/-- The relations that count are as many as the set of condensed relations grows by. -/
theorem count_foldl_condenseStep (rs : List Relation) (p : Progress) :
    (rs.foldl condenseStep p).count + p.ns.condensed.size =
      p.count + (rs.foldl condenseStep p).ns.condensed.size := by
  induction rs generalizing p with
  | nil => rfl
  | cons r rest ih =>
    have hstep := count_condenseStep p r
    have hrest := ih (condenseStep p r)
    rw [List.foldl_cons]
    omega

/-- What condensing counts is by how much the set of condensed relations grows. -/
theorem condensedBy_add_size (ns : Namespace) :
    ns.condensedBy + ns.condensed.size = ns.condense.condensed.size := by
  have hcount := count_foldl_condenseStep (ns.dependencies.toList ++ ns.associations.toList) { ns }
  rw [Nat.zero_add] at hcount
  exact hcount

/-- The relations of an entity after some were recorded are its own and those between its children.
-/
theorem relationsOf?_foldl (ls : List Lifted) :
    (ls.foldl addLifted ns).relationsOf? id = (ns.relationsOf? id).map fun s ↦
      ((ls.filter (·.parent = id)).map Lifted.relation).foldl RelationSet.insert s := by
  induction ls generalizing ns with
  | nil => exact (congrFun Option.map_id _).symm
  | cons l rest ih =>
    rw [List.foldl_cons, ih, relationsOf?_addLifted, List.filter_cons]
    by_cases hid : l.parent = id
    · rw [if_pos hid.symm, if_pos (decide_eq_true hid), Option.map_map, hid]
      rfl
    · rw [if_neg (Ne.symm hid), if_neg (by simpa using hid)]

/-- Lifted relations are plain uses of weight zero, so their keys tell them apart. -/
theorem relation_eq_of_key_eq (ls : List Lifted) : ∀ x ∈ ls.map Lifted.relation,
    ∀ y ∈ ls.map Lifted.relation, x.toRelationKey = y.toRelationKey → x = y := by
  intro x hx y hy hkey
  obtain ⟨l, -, rfl⟩ := List.mem_map.1 hx
  obtain ⟨l', -, rfl⟩ := List.mem_map.1 hy
  exact congrArg (Relation.mk · (.dependency .uses none)) hkey

/-- Condensing again finds everything recorded. -/
theorem condense_condense (ns : Namespace) : ns.condense.condense = ns.condense := by
  have hrecorded : ∀ l ∈ ns.lifted, ns.condense.addLifted l = ns.condense := by
    intro l hl
    refine addLifted_eq_self ?_ fun s hs ↦ ?_
    · rw [condense_eq_foldl, condensed_foldl]
      exact RelationSet.contains_foldl_insert (List.mem_map_of_mem hl)
    · rw [condense_eq_foldl, relationsOf?_foldl] at hs
      obtain ⟨old, -, rfl⟩ := Option.map_eq_some_iff.1 hs
      exact RelationSet.contains_foldl_insert
        (List.mem_map_of_mem (List.mem_filter.2 ⟨hl, decide_eq_true rfl⟩))
  have hfold : ∀ ls : List Lifted, (∀ l ∈ ls, ns.condense.addLifted l = ns.condense) →
      ls.foldl addLifted ns.condense = ns.condense := by
    intro ls h
    induction ls with
    | nil => rfl
    | cons l rest ih =>
      rw [List.foldl_cons, h l List.mem_cons_self]
      exact ih fun l' hl' ↦ h l' (List.mem_cons_of_mem _ hl')
  rw [condense_eq_foldl ns.condense, lifted_congr (withoutRelations_condense ns)]
  exact hfold ns.lifted hrecorded

/-! ### Main result -/

/-- A relation between siblings is what some dependency or association lifts to. -/
def Condenses (ns : Namespace) (l : Lifted) : Prop :=
  ∃ r, (r ∈ ns.dependencies.toList ∨ r ∈ ns.associations.toList) ∧
    ns.Lifts r.source r.target l

/-- In a consistent namespace condensing finds all siblings that relations lift to. -/
theorem Consistent.mem_lifted_iff (h : ns.Consistent) : l ∈ ns.lifted ↔ ns.Condenses l := by
  simp only [lifted, List.mem_filterMap, List.mem_append, h.lift_eq_some_iff]
  rfl

/-- **Condensing.** The condensed relations gain the plain uses between siblings that some
dependency or association lifts to, except where one with the same key is there; the relation set of
an entity that has one gains those between its children. Nothing else changes. The number of
relations that are new among the condensed ones is what is reported, none of them leads from an
entity to itself, and condensing again neither changes nor reports anything. -/
theorem condense_records_lifted (ns : Namespace) (h : ns.Consistent) :
    (∀ r, r ∈ ns.condense.condensed.toList ↔
      r ∈ ns.condensed.toList ∨ ns.condensed.contains r.toRelationKey = false ∧
        ∃ l, ns.Condenses l ∧ r = l.relation) ∧
    (∀ id old, ns.relationsOf? id = some old → ∃ new, ns.condense.relationsOf? id = some new ∧
      ∀ r, r ∈ new.toList ↔
        r ∈ old.toList ∨ old.contains r.toRelationKey = false ∧
          ∃ l, ns.Condenses l ∧ l.parent = id ∧ r = l.relation) ∧
    ns.condense.withoutRelations = ns.withoutRelations ∧
    ns.condensedBy = (ns.condense.condensed.toList.filter fun r ↦
      !ns.condensed.contains r.toRelationKey).length ∧
    (∀ r ∈ ns.condense.condensed.toList, r ∉ ns.condensed.toList → r.source ≠ r.target) ∧
    ns.condense.condense = ns.condense ∧ ns.condense.condensedBy = 0 := by
  have hadded : ∀ (ls : List Lifted) (s : RelationSet) (r : Relation),
      r ∈ ((ls.map Lifted.relation).foldl RelationSet.insert s).toList ↔
        r ∈ s.toList ∨ s.contains r.toRelationKey = false ∧ ∃ l ∈ ls, r = l.relation := by
    intro ls s r
    rw [RelationSet.mem_foldl_insert (relation_eq_of_key_eq ls), List.mem_map]
    simp only [eq_comm]
  have hcondensed : ∀ r, r ∈ ns.condense.condensed.toList ↔
      r ∈ ns.condensed.toList ∨ ns.condensed.contains r.toRelationKey = false ∧
        ∃ l, ns.Condenses l ∧ r = l.relation := by
    intro r
    rw [condense_eq_foldl, condensed_foldl, hadded]
    simp only [h.mem_lifted_iff]
  refine ⟨hcondensed, fun id old hold ↦ ?_, withoutRelations_condense ns, ?_, fun r hr hnew ↦ ?_,
    condense_condense ns, ?_⟩
  · refine ⟨_, by rw [condense_eq_foldl, relationsOf?_foldl, hold, Option.map_some], fun r ↦ ?_⟩
    rw [hadded]
    simp only [List.mem_filter, h.mem_lifted_iff, decide_eq_true_eq, and_assoc]
  · have hsize := ns.condensedBy_add_size
    have hnew := RelationSet.size_eq_of_subset fun r hr ↦ (hcondensed r).2 (.inl hr)
    omega
  · obtain ⟨-, l, ⟨_, _, hl⟩, rfl⟩ := ((hcondensed r).1 hr).resolve_left hnew
    exact hl.ne
  · have hsize := ns.condense.condensedBy_add_size
    rw [condense_condense] at hsize
    omega

/-- The namespace with the given names and bodies, numbered in order. -/
def ofBodies (project : String) (bodies : List (QualName × Body)) : Namespace :=
  bodies.foldl (fun ns e ↦ ((ns.create e.1 e.2).map Prod.snd).getD ns) { project }

/-- A namespace that is made by creations is consistent. -/
theorem consistent_ofBodies (project : String) (bodies : List (QualName × Body)) :
    (ofBodies project bodies).Consistent := by
  have hfold : ∀ (rest : List (QualName × Body)) (ns : Namespace), ns.Consistent → ns.Bounded →
      (rest.foldl (fun ns e ↦ ((ns.create e.1 e.2).map Prod.snd).getD ns) ns).Consistent := by
    intro rest
    induction rest with
    | nil => exact fun _ h _ ↦ h
    | cons e rest ih =>
      intro ns h hb
      rw [List.foldl_cons]
      cases hcreate : ns.create e.1 e.2 with
      | none => exact ih ns h hb
      | some created => exact ih created.2 (h.create hb hcreate) (hb.create hcreate)
  exact hfold bodies _ (consistent_empty project) (bounded_empty project)

/-- A package with two modules, where a function of one calls a method of a class of the other. -/
def crossing : Namespace :=
  (ofBodies "p" [(⟨"p"⟩, .package {}), (⟨"p.a"⟩, .component {}), (⟨"p.a.f"⟩, .function {}),
    (⟨"p.b"⟩, .component {}), (⟨"p.b.C"⟩, .cls {}), (⟨"p.b.C.m"⟩, .function {})]).addDependency
      (.dependency 2 5 .uses (some .calls))

theorem consistent_crossing : crossing.Consistent :=
  have h := consistent_ofBodies "p" _
  ⟨h.exists_of_lookup, h.lookup_of_get?⟩

/-- The call is recorded between the two modules, with the package, and only once. -/
theorem condense_records_crossing :
    crossing.Consistent ∧ crossing.condensedBy = 1 ∧
      (∃ l, crossing.Condenses l ∧ l.parent = 0 ∧ l.relation = .dependency 1 3 .uses none) ∧
      (∀ s, crossing.condense.relationsOf? 0 = some s →
        .dependency 1 3 .uses none ∈ s.toList) ∧
      crossing.condense.condense = crossing.condense := by
  obtain ⟨hcondensed, hparents, -, -, -, hagain, -⟩ :=
    condense_records_lifted crossing consistent_crossing
  have hmem : .dependency 1 3 .uses none ∈ crossing.condense.condensed.toList := by decide +kernel
  have hnew : .dependency 1 3 .uses none ∉ crossing.condensed.toList := by decide +kernel
  obtain ⟨-, l, hl, heq⟩ := ((hcondensed _).1 hmem).resolve_left hnew
  have hparent : l.parent = 0 := by
    have hsource : l.source = 1 := congrArg (·.source) heq.symm
    obtain ⟨_, _, hlifts⟩ := hl
    have hup := hlifts.source_parent
    rw [hsource, show crossing.parent? 1 = some 0 by decide +kernel] at hup
    exact (Option.some.inj hup).symm
  refine ⟨consistent_crossing, by decide +kernel, ⟨l, hl, hparent, heq.symm⟩, fun s hs ↦ ?_, hagain⟩
  have hold : crossing.relationsOf? 0 = some ∅ := by rfl
  obtain ⟨new, hnew, hiff⟩ := hparents 0 ∅ hold
  cases hnew.symm.trans hs
  exact (hiff _).2 (.inr ⟨by decide +kernel, l, hl, hparent, heq⟩)

end Namespace

end CodeAtlas
