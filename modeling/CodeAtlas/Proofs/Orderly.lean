import CodeAtlas.Proofs.Building

/-!
# Namespaces in order

While a project is built, entities of modules and directories are created before it is known whether
they will be kept. A namespace is orderly up to these *unfinished* entities (`Namespace.Orderly`).

## The order

* What an entity holds is there, finished, and of a kind that belongs on the shelf.
* A class or a function is held by the entity around it by name (`Namespace.Owned`).
* Only directories have something attached to them.
* What is finished is not empty (`Namespace.Filled`): a module declares something, and a directory
  declares something or has something attached.

## What keeps it

Each thing that building does keeps this order. A new module or directory is unfinished at first
(`Orderly.create`), what is declared is finished at once (`Orderly.declareStep`), and what is
finished may be attached (`Orderly.attach`). An unfinished entity is finished when it has got
something (`Orderly.finish`), or removed (`Orderly.prune`). It can be removed because nothing that
is unfinished is held by anything. When a directory has had its turn nothing is unfinished, so the
namespace that is built is in order without exception.
-/

namespace CodeAtlas

namespace Namespace

variable {ns ns' : Namespace} {first id owner child i : Id} {name : QualName} {body : Body}
  {kind : EntityKind} {unfinished : List Id}

/-! ### What is kept -/

/-- Something is attached to an entity. -/
def HasChild (ns : Namespace) (id : Id) : Prop :=
  ∃ i, ns.Holds id .packages i ∨ ns.Holds id .components i

/-- What is on one of the two shelves of a directory is attached to it. -/
theorem Holds.hasChild {s : Shelf} (h : ns.Holds id s i) (hs : s = .packages ∨ s = .components) :
    ns.HasChild id := by
  rcases hs with rfl | rfl
  · exact ⟨i, .inl h⟩
  · exact ⟨i, .inr h⟩

/-- An entity that is not empty, as far as it could be. -/
def Filled (ns : Namespace) (id : Id) : Prop :=
  ns.kind? id = some .cls ∨ ns.kind? id = some .function ∨ ns.declares id ∨ ns.HasChild id

/-- If an entity is declared, it is held by the entity around it. -/
def Owned (ns : Namespace) (i : Id) : EntityKind → Prop
  | .cls => ∃ owner, ns.parent? i = some owner ∧ ns.Holds owner .classes i
  | .function => ∃ owner, ns.parent? i = some owner ∧
      (ns.Holds owner .functions i ∨ ns.Holds owner .methods i)
  | .package | .component => True

/-- A class or a function is on a shelf for what is declared of its parent. -/
theorem Owned.exists_holds (h : ns.Owned i kind) (hkind : kind = .cls ∨ kind = .function) :
    ∃ owner s, s.isDeclared = true ∧ ns.parent? i = some owner ∧ ns.Holds owner s i := by
  rcases hkind with rfl | rfl
  · obtain ⟨owner, hparent, hholds⟩ := h
    exact ⟨owner, .classes, rfl, hparent, hholds⟩
  · obtain ⟨owner, hparent, hholds | hholds⟩ := h
    · exact ⟨owner, .functions, rfl, hparent, hholds⟩
    · exact ⟨owner, .methods, rfl, hparent, hholds⟩

/-- The namespace is in order, up to entities that are unfinished. -/
structure Orderly (unfinished : List Id) (ns : Namespace) : Prop extends Tidy ns where
  live : ∀ i ∈ unfinished, (ns.kind? i).isSome
  held : ∀ o s i, ns.Holds o s i →
    i ∉ unfinished ∧ ∃ kind, ns.kind? i = some kind ∧ s.Admits kind
  owned : ∀ i kind, ns.kind? i = some kind → ns.Owned i kind
  around : ∀ o, ns.HasChild o → ns.OfDirectory o
  filled : ∀ i, (ns.kind? i).isSome → i ∉ unfinished → ns.Filled i

theorem orderly_empty (project : String) : Orderly [] { project } where
  toTidy := tidy_empty project
  live _ hi := absurd hi List.not_mem_nil
  held _ _ _ h := by simp [Holds, get?] at h
  owned _ _ h := by simp [kind?, get?] at h
  around _ h := by simp [HasChild, Holds, get?] at h
  filled _ h := by simp [kind?, get?] at h

/-! ### Additions -/

namespace Widens

theorem hasChild (h : ns.Widens ns') (hid : ns.HasChild id) : ns'.HasChild id := by
  obtain ⟨i, hi⟩ := hid
  exact ⟨i, hi.imp h.holds h.holds⟩

/-- What is not empty is not empty after additions. -/
theorem filled (h : ns.Widens ns') (hid : ns.Filled id) : ns'.Filled id :=
  hid.imp h.kind? (.imp h.kind? (.imp h.declares h.hasChild))

/-- What is held by the entity around it by name still is after additions. -/
theorem owned (h : ns.Widens ns') (hc : ns.Consistent) (hc' : ns'.Consistent)
    (hi : ns.Owned i kind) : ns'.Owned i kind := by
  cases kind with
  | package | component => trivial
  | cls =>
    obtain ⟨owner, hparent, hholds⟩ := hi
    exact ⟨owner, h.parent? hc hc' hparent, h.holds hholds⟩
  | function =>
    obtain ⟨owner, hparent, hholds⟩ := hi
    exact ⟨owner, h.parent? hc hc' hparent, hholds.imp h.holds h.holds⟩

end Widens

/-- What an entity declares is held by it, which is around it by name. -/
theorem owned_of_declarable {e : Entity} (hc : ns.Consistent) (howner : ns.get? owner = some e)
    (short : Ident) (hbody : Body.Declarable e.kind body)
    (hid : ns.HasEntity id body.kind (e.qualName.child short.text))
    (hholds : ns.Holds owner (.declared e.kind body.kind) id) : ns.Owned id body.kind := by
  have hparent : ns.parent? id = some owner := by
    obtain ⟨e', he', -, hname⟩ := hid
    refine parent?_eq_some_iff.2 ⟨e', he', e.qualName, ?_, hc.lookup_of_get? owner e howner⟩
    rw [hname]
    exact QualName.parent_child short.dotFree
  generalize e.kind = ownerKind at hbody hholds
  cases hbody with
  | cls => exact ⟨owner, hparent, hholds⟩
  | function => exact ⟨owner, hparent, .inl hholds⟩
  | method => exact ⟨owner, hparent, .inr hholds⟩

namespace Orderly

/-- A new module or directory is unfinished. -/
theorem create (h : ns.Orderly unfinished) (hbody : body.Container)
    (hcreate : ns.create name body = some (id, ns')) : ns'.Orderly (id :: unfinished) := by
  have hwidens := widens_create h.bounded hcreate
  have hholds : ∀ {o s i}, ns'.Holds o s i ↔ ns.Holds o s i :=
    holds_create h.bounded hbody.shelf_eq hcreate
  have hfresh : ns.kind? id = none := by
    rw [(create_eq_some_iff.1 hcreate).2.1]
    exact h.bounded.kind?_nextId
  have hold : ∀ {i kind}, ns'.kind? i = some kind → i ≠ id → ns.kind? i = some kind := by
    intro i kind hi hne
    rwa [kind?_create hcreate, if_neg hne] at hi
  refine ⟨h.toTidy.create hcreate, fun i hi ↦ ?_, fun o s i hi ↦ ?_, fun i kind hi ↦ ?_,
    fun o ho ↦ ?_, fun i hi hunfinished ↦ ?_⟩
  · rw [kind?_create hcreate]
    rcases List.mem_cons.1 hi with rfl | hi
    · rw [if_pos rfl]
      rfl
    · split
      · rfl
      · exact h.live i hi
  · obtain ⟨hfinished, kind, hkind, hadmits⟩ := h.held o s i (hholds.1 hi)
    refine ⟨?_, kind, hwidens.kind? hkind, hadmits⟩
    refine List.not_mem_cons_of_ne_of_not_mem ?_ hfinished
    rintro rfl
    rw [hkind] at hfresh
    cases hfresh
  · by_cases hne : i = id
    · rw [kind?_create hcreate, if_pos hne] at hi
      cases hi
      cases hbody with
      | package | component => trivial
    · exact hwidens.owned h.toConsistent (h.toTidy.create hcreate).toConsistent
        (h.owned i kind (hold hi hne))
  · obtain ⟨i, hi⟩ := ho
    exact hwidens.ofDirectory (h.around o ⟨i, hi.imp hholds.1 hholds.1⟩)
  · have hne : i ≠ id := List.ne_of_not_mem_cons hunfinished
    obtain ⟨kind, hkind⟩ := Option.isSome_iff_exists.1 hi
    have hkind := hold hkind hne
    exact hwidens.filled
      (h.filled i (by rw [hkind]; rfl) (List.not_mem_of_not_mem_cons hunfinished))

/-- What is declared is finished. -/
theorem declareStep (h : ns.Orderly unfinished) (hstep : DeclareStep first ns ns') :
    ns'.Orderly unfinished := by
  have hextended := hstep.extended h.toTidy
  have hwidens := hextended.widens
  obtain @⟨created, owner, id, e, short, body, -, howner, hbody, hcreate⟩ := hstep
  have hfresh : ns.kind? id = none := by
    rw [(create_eq_some_iff.1 hcreate).2.1]
    exact h.bounded.kind?_nextId
  have hkind := fun i ↦ kind?_declaring (i := i) hcreate owner short.text
  have hholds := fun o s i ↦
    holds_declaring (i := i) (o := o) (s := s) h.bounded howner hbody hcreate short.text
  refine ⟨hextended.tidy, fun i hi ↦ ?_, fun o s i hi ↦ ?_, fun i kind hi ↦ ?_, fun o ho ↦ ?_,
    fun i hi hunfinished ↦ ?_⟩
  · obtain ⟨kind, hi⟩ := Option.isSome_iff_exists.1 (h.live i hi)
    rw [hwidens.kind? hi]
    rfl
  · rcases (hholds o s i).1 hi with hi | ⟨-, rfl, rfl⟩
    · obtain ⟨hfinished, kind, hkind, hadmits⟩ := h.held o s i hi
      exact ⟨hfinished, kind, hwidens.kind? hkind, hadmits⟩
    · refine ⟨fun hi ↦ ?_, body.kind, by rw [hkind, if_pos rfl], hbody.admits⟩
      have hlive := h.live i hi
      rw [hfresh] at hlive
      cases hlive
  · by_cases hi' : i = id
    · subst hi'
      rw [hkind, if_pos rfl] at hi
      cases hi
      obtain ⟨e', he', hwider⟩ := hwidens owner e howner
      refine owned_of_declarable hextended.tidy.toConsistent he' short ?_ ?_ ?_
      · rw [Entity.kind, hwider.kind]
        exact hbody
      · rw [hwider.qualName]
        exact (hasEntity_create hcreate).modify (Body.kind_declaring _ _ _ _)
      · rw [Entity.kind, hwider.kind]
        exact (hholds _ _ _).2 (.inr ⟨rfl, rfl, rfl⟩)
    · rw [hkind, if_neg hi'] at hi
      exact hwidens.owned h.toConsistent hextended.tidy.toConsistent (h.owned i kind hi)
  · obtain ⟨i, hi⟩ := ho
    refine hwidens.ofDirectory (h.around o ⟨i, ?_⟩)
    refine hi.imp (fun hi ↦ ?_) fun hi ↦ ?_
    · exact ((hholds _ _ _).1 hi).resolve_right fun h ↦ hbody.ne_declared (.inl rfl) h.2.1
    · exact ((hholds _ _ _).1 hi).resolve_right fun h ↦ hbody.ne_declared (.inr rfl) h.2.1
  · rw [hkind] at hi
    by_cases hi' : i = id
    · have hnew : (created.modify owner (Body.declaring short.text (e.qualName.child short.text) id
          body.kind)).kind? i = some body.kind := by rw [hkind, if_pos hi']
      generalize e.kind = ownerKind at hbody
      cases hbody with
      | cls => exact .inl hnew
      | function | method => exact .inr (.inl hnew)
    · rw [if_neg hi'] at hi
      exact hwidens.filled (h.filled i hi hunfinished)

/-- Declarations keep a namespace in order. -/
theorem declares (h : ns.Orderly unfinished) (hsteps : Declares first ns ns') :
    ns'.Orderly unfinished := by
  induction hsteps with
  | refl => exact h
  | tail _ hstep ih => exact ih.declareStep hstep

/-- What is finished may be attached to a directory. -/
theorem attach (h : ns.Orderly unfinished) (howner : ns.OfDirectory owner)
    (hchild : ns.kind? child = some kind) (hfinished : child ∉ unfinished) :
    (ns.attach owner child kind).Orderly unfinished := by
  have htidy : (ns.attach owner child kind).Tidy := h.toTidy.modify
  have hwidens := widens_attach ns owner child kind
  have hkind : ∀ i, (ns.attach owner child kind).kind? i = ns.kind? i := fun i ↦
    kind?_modify (Body.kind_mapChildren · _)
  have hholds : ∀ {o s i}, (ns.attach owner child kind).Holds o s i ↔
      ns.Holds o s i ∨ o = owner ∧ s = .attached kind ∧ i = child :=
    holds_attach howner.kind?
  refine ⟨htidy, fun i hi ↦ ?_, fun o s i hi ↦ ?_, fun i k hi ↦ ?_, fun o ho ↦ ?_,
    fun i hi hunfinished ↦ ?_⟩
  · rw [hkind]
    exact h.live i hi
  · rw [hkind]
    rcases hholds.1 hi with hi | ⟨-, rfl, rfl⟩
    · exact h.held o s i hi
    · exact ⟨hfinished, kind, hchild, Shelf.admits_attached kind⟩
  · rw [hkind] at hi
    exact hwidens.owned h.toConsistent htidy.toConsistent (h.owned i k hi)
  · refine hwidens.ofDirectory ?_
    by_cases ho' : o = owner
    · exact ho' ▸ howner
    · obtain ⟨i, hi⟩ := ho
      refine h.around o ⟨i, ?_⟩
      refine hi.imp (fun hi ↦ ?_) fun hi ↦ ?_ <;>
        exact (hholds.1 hi).resolve_right fun h ↦ ho' h.1
  · rw [hkind] at hi
    exact hwidens.filled (h.filled i hi hunfinished)

/-- An unfinished entity that declares nothing may be removed: nothing holds it. -/
theorem prune (h : ns.Orderly (id :: unfinished)) (hid : id ∉ unfinished)
    (hkind : ns.kind? id = some .package ∨ ns.kind? id = some .component)
    (hdeclares : ns.declares id = false) : (ns.prune id).Orderly unfinished := by
  have hold : ∀ {i kind}, (ns.prune id).kind? i = some kind → i ≠ id ∧ ns.kind? i = some kind := by
    intro i kind hi
    rw [kind?_prune] at hi
    split at hi
    · cases hi
    · next hne => exact ⟨hne, hi⟩
  have hkept : ∀ {i}, i ≠ id → (ns.prune id).kind? i = ns.kind? i := fun hne ↦ by
    rw [kind?_prune, if_neg hne]
  have hsame : ∀ {i}, i ≠ id → (ns.prune id).get? i = ns.get? i := fun hne ↦ by
    rw [get?_prune, if_neg hne]
  refine ⟨h.toTidy.prune, fun i hi ↦ ?_, fun o s i hi ↦ ?_, fun i kind hi ↦ ?_, fun o ho ↦ ?_,
    fun i hi hunfinished ↦ ?_⟩
  · rw [hkept (by rintro rfl; exact hid hi)]
    exact h.live i (List.mem_cons_of_mem _ hi)
  · obtain ⟨-, hi⟩ := holds_prune.1 hi
    obtain ⟨hfinished, kind, hkind, hadmits⟩ := h.held o s i hi
    refine ⟨List.not_mem_of_not_mem_cons hfinished, kind, ?_, hadmits⟩
    rw [hkept (List.ne_of_not_mem_cons hfinished), hkind]
  · -- what declares something is not removed, so it is still around what it declares
    obtain ⟨hne, hi⟩ := hold hi
    have hparent : ∀ {o}, ns.parent? i = some o → o ≠ id → (ns.prune id).parent? i = some o := by
      intro o hparent ho
      obtain ⟨e, he, name, hname, hlookup⟩ := parent?_eq_some_iff.1 hparent
      refine parent?_eq_some_iff.2 ⟨e, by rw [hsame hne, he], name, hname, ?_⟩
      rw [lookup_prune h.toConsistent, hlookup, if_neg fun heq ↦ ho (Option.some.inj heq)]
    have hmodule : ∀ {o}, ns.Holds o .classes i ∨ ns.Holds o .functions i → o ≠ id := by
      rintro o ho rfl
      rw [declares_iff.2 ⟨i, ho⟩] at hdeclares
      cases hdeclares
    have hclass : ∀ {o}, ns.Holds o .methods i → o ≠ id := by
      rintro o ho rfl
      rw [ho.kind?_of_methods] at hkind
      exact hkind.elim nofun nofun
    have howned := h.owned i kind hi
    cases kind with
    | package | component => trivial
    | cls =>
      obtain ⟨o, ho, hholds⟩ := howned
      have hne := hmodule (.inl hholds)
      exact ⟨o, hparent ho hne, holds_prune.2 ⟨hne, hholds⟩⟩
    | function =>
      obtain ⟨o, ho, hholds⟩ := howned
      have hne : o ≠ id := hholds.elim (fun h ↦ hmodule (.inr h)) hclass
      exact ⟨o, hparent ho hne,
        hholds.imp (fun h ↦ holds_prune.2 ⟨hne, h⟩) fun h ↦ holds_prune.2 ⟨hne, h⟩⟩
  · obtain ⟨i, hi⟩ := ho
    have hne : o ≠ id := hi.elim (fun hi ↦ (holds_prune.1 hi).1) fun hi ↦ (holds_prune.1 hi).1
    obtain ⟨e, he, hdirectory⟩ := h.around o
      ⟨i, hi.imp (fun hi ↦ (holds_prune.1 hi).2) fun hi ↦ (holds_prune.1 hi).2⟩
    exact ⟨e, by rw [hsame hne, he], hdirectory⟩
  · obtain ⟨kind, hkind⟩ := Option.isSome_iff_exists.1 hi
    obtain ⟨hne, hkind⟩ := hold hkind
    have hfilled := h.filled i (by rw [hkind]; rfl)
      (List.not_mem_cons_of_ne_of_not_mem hne hunfinished)
    have hholds : ∀ {s j}, ns.Holds i s j → (ns.prune id).Holds i s j := fun hj ↦
      holds_prune.2 ⟨hne, hj⟩
    unfold Filled at hfilled ⊢
    rw [hkept hne]
    refine hfilled.imp_right
      (.imp_right (.imp (fun h ↦ ?_) fun ⟨j, hj⟩ ↦ ⟨j, hj.imp hholds hholds⟩))
    obtain ⟨j, hj⟩ := declares_iff.1 h
    exact declares_iff.2 ⟨j, hj.imp hholds hholds⟩

/-- An unfinished entity that is not empty is finished. -/
theorem finish (h : ns.Orderly (id :: unfinished)) (hfilled : ns.Filled id) :
    ns.Orderly unfinished where
  toTidy := h.toTidy
  live i hi := h.live i (List.mem_cons_of_mem _ hi)
  held o s i hi := (h.held o s i hi).imp_left List.not_mem_of_not_mem_cons
  owned := h.owned
  around := h.around
  filled i hi hunfinished := by
    by_cases hne : i = id
    · exact hne ▸ hfilled
    · exact h.filled i hi (List.not_mem_cons_of_ne_of_not_mem hne hunfinished)

/-- Noting the root and files changes nothing else. -/
theorem note (h : ns.Orderly unfinished) (root : Option Id) (sources : List SourceFile) :
    Orderly unfinished { ns with root, sources } :=
  ⟨⟨⟨h.exists_of_lookup, h.lookup_of_get?⟩, h.bounded, h.id_eq⟩, h.live, h.held, h.owned, h.around,
    h.filled⟩

end Orderly

end Namespace

end CodeAtlas
