import CodeAtlas.Build
import CodeAtlas.Proofs.Containment

/-!
# What entities hold

An entity keeps the numbers of others in up to five sets: packages and components inside, classes
and functions of a module, and methods of a class. They are looked at here in one way, as shelves
(`Body.shelf`), so that what is said of all sets is said once.

## Holding

`Namespace.Holds` is the relation "this entity has that one on this shelf". Two of the shelves are
filled by attaching, which happens to modules and directories, and three by declaring, which happens
to modules and classes; `Shelf.attached` and `Shelf.declared` say which shelf is used. A shelf
admits some kinds of entities only (`Shelf.Admits`). Attaching tells packages from everything else,
so a class that is attached is found on the shelf of the components.

Each operation on the store is described by what it does to this relation: creation leaves it as it
is (`holds_create`), removal takes away what the removed entity held (`holds_prune`), and attaching
adds one pair (`holds_attach`).

## Additions

While a project is built entities only get more (`Namespace.Widens`), until a module or a directory
is removed that turned out to be empty. What is read off from an entity that widens stays true: that
it is there, its kind, what it holds, whether it declares something, and its parent.
-/

namespace CodeAtlas

/-! ### Shelves -/

/-- The sets in which entities are kept. -/
inductive Shelf where
  | packages
  | components
  | classes
  | functions
  | methods
deriving DecidableEq, Repr

namespace Shelf

/-- The shelf that something attached is put on, by its kind. -/
def attached : EntityKind → Shelf
  | .package => packages
  | .component | .cls | .function => components

/-- The shelf that something declared is put on, by the kind of what declares it and its own. -/
def declared (owner kind : EntityKind) : Shelf :=
  match owner, kind with
  | .cls, _ => methods
  | _, .cls => classes
  | _, _ => functions

/-- The kinds of entities on a shelf. Of what is attached, only packages are told apart. -/
def Admits : Shelf → EntityKind → Prop
  | packages, kind => kind = .package
  | components, kind => kind ≠ .package
  | classes, kind => kind = .cls
  | functions, kind | methods, kind => kind = .function

/-- Whether what is on a shelf was declared, and not attached. -/
def isDeclared : Shelf → Bool
  | packages | components => false
  | classes | functions | methods => true

/-- Two shelves are for what is attached, and the others for what is declared. -/
theorem isDeclared_eq_false_iff {s : Shelf} :
    s.isDeclared = false ↔ s = packages ∨ s = components := by
  cases s <;> simp [isDeclared]

/-- What is attached goes to one of the two shelves that every directory has. -/
theorem attached_eq (kind : EntityKind) :
    attached kind = packages ∨ attached kind = components := by
  cases kind with
  | package => exact .inl rfl
  | component | cls | function => exact .inr rfl

/-- The shelf that something attached is put on is for things of its kind. -/
theorem admits_attached (kind : EntityKind) : (attached kind).Admits kind := by
  cases kind with
  | package => rfl
  | component | cls | function => exact nofun

end Shelf

namespace Body

/-- The entities on a shelf; a body without the shelf has none there. -/
def shelf (b : Body) (s : Shelf) : IdSet :=
  match b with
  | .package p =>
    match s with
    | .packages => p.children.packages
    | .components => p.children.components
    | .classes | .functions | .methods => ∅
  | .component c =>
    match s with
    | .packages => c.children.packages
    | .components => c.children.components
    | .classes => c.classes
    | .functions => c.functions
    | .methods => ∅
  | .cls c =>
    match s with
    | .methods => c.methods
    | .packages | .components | .classes | .functions => ∅
  | .function _ => ∅

/-- Whether a body is that of a directory with a marker file. -/
def isDirectory (b : Body) : Bool :=
  (b.component?.map Component.isDirectory).getD false

/-- A body is that of a directory, with or without a marker file. -/
def OfDirectory (b : Body) : Prop :=
  b.kind = .package ∨ b.isDirectory = true

/-- What is attached is no declaration. -/
theorem shelf_mapChildren {s : Shelf} (hs : s.isDeclared = true) (b : Body)
    (f : Containment → Containment) : (b.mapChildren f).shelf s = b.shelf s := by
  cases s with
  | packages | components => cases hs
  | classes | functions | methods => cases b <;> rfl

@[simp]
theorem isDirectory_mapChildren (b : Body) (f : Containment → Containment) :
    (b.mapChildren f).isDirectory = b.isDirectory := by
  cases b <;> rfl

end Body

/-! ### Sets of numbers -/

/-- A set of numbers that is not empty has a number in it. -/
theorem not_isEmpty_iff {s : IdSet} : (!s.isEmpty) = true ↔ ∃ i, i ∈ s := by
  rw [Bool.not_eq_true', Bool.eq_false_iff, Ne, Std.ExtTreeSet.isEmpty_iff,
    Std.ExtTreeSet.eq_empty_iff_forall_not_mem]
  exact not_forall_not

namespace Namespace

variable {ns ns' ns'' : Namespace} {id owner child o i : Id} {name : QualName} {body : Body}
  {s added : Shelf} {kind : EntityKind} {f : Body → Body} {e : Entity}

/-- An entity has another on a shelf. -/
def Holds (ns : Namespace) (owner : Id) (s : Shelf) (i : Id) : Prop :=
  ∃ e, ns.get? owner = some e ∧ i ∈ e.body.shelf s

/-- An entity is that of a directory. -/
def OfDirectory (ns : Namespace) (id : Id) : Prop :=
  ∃ e, ns.get? id = some e ∧ e.body.OfDirectory

instance (ns : Namespace) (owner : Id) (s : Shelf) (i : Id) : Decidable (ns.Holds owner s i) :=
  inferInstanceAs (Decidable (∃ e ∈ ns.get? owner, i ∈ e.body.shelf s))

/-- What an entity holds is read off from that entity alone. -/
theorem holds_congr (h : ns'.get? owner = ns.get? owner) :
    ns'.Holds owner s i ↔ ns.Holds owner s i := by
  rw [Holds, h, Holds]

theorem Holds.isSome_kind? (h : ns.Holds owner s i) : (ns.kind? owner).isSome := by
  obtain ⟨e, he, -⟩ := h
  rw [kind?, he]
  rfl

/-- A directory is a package, or a component if it has a marker file. -/
theorem OfDirectory.kind? (h : ns.OfDirectory id) :
    ns.kind? id = some .package ∨ ns.kind? id = some .component := by
  obtain ⟨⟨_, _, body⟩, he, hdirectory⟩ := h
  rw [Namespace.kind?, he]
  cases body with
  | package => exact .inl rfl
  | component => exact .inr rfl
  | cls | function => exact absurd hdirectory (by simp [Body.OfDirectory, Body.kind,
      Body.isDirectory, Body.component?])

/-! ### Whose shelves are used -/

/-- Only components have classes and functions. -/
theorem Holds.kind?_of_declared (h : ns.Holds owner s i) (hs : s = .classes ∨ s = .functions) :
    ns.kind? owner = some .component := by
  obtain ⟨⟨_, _, body⟩, he, hi⟩ := h
  rw [kind?, he]
  cases body with
  | component => rfl
  | package | cls | function =>
    rcases hs with rfl | rfl <;> exact absurd hi Std.ExtTreeSet.not_mem_empty

/-- Only classes have methods. -/
theorem Holds.kind?_of_methods (h : ns.Holds owner .methods i) : ns.kind? owner = some .cls := by
  obtain ⟨⟨_, _, body⟩, he, hi⟩ := h
  rw [kind?, he]
  cases body with
  | cls => rfl
  | package | component | function => exact absurd hi Std.ExtTreeSet.not_mem_empty

/-- A component declares something exactly if there is a class or a function in it. -/
theorem declares_iff :
    ns.declares id ↔ ∃ i, ns.Holds id .classes i ∨ ns.Holds id .functions i := by
  unfold declares component? Holds
  cases ns.get? id with
  | none => simp
  | some e =>
    obtain ⟨_, _, body⟩ := e
    cases body with
    | component c =>
      simp only [Option.bind_some, Body.component?, Component.declares, Bool.or_eq_true,
        not_isEmpty_iff, Option.some.injEq, exists_eq_left', Body.shelf, exists_or]
    | package | cls | function => simp [Body.component?, Body.shelf]

/-! ### The operations -/

/-- Creating an entity that holds nothing does not change what is held. -/
theorem holds_create (hb : ns.Bounded) (hempty : ∀ s, body.shelf s = ∅)
    (h : ns.create name body = some (id, ns')) : ns'.Holds o s i ↔ ns.Holds o s i := by
  by_cases ho : o = id
  · subst ho
    have hold : ¬ ns.Holds o s i := fun hold ↦ by
      have hfresh := hb.kind?_nextId
      rw [← (create_eq_some_iff.1 h).2.1] at hfresh
      have hsome := hold.isSome_kind?
      rw [hfresh] at hsome
      cases hsome
    refine iff_of_false ?_ hold
    rintro ⟨e, he, hi⟩
    rw [get?_create h, if_pos rfl] at he
    cases he
    rw [hempty s] at hi
    exact Std.ExtTreeSet.not_mem_empty hi
  · refine holds_congr ?_
    rw [get?_create h, if_neg ho]

/-- A new entity holds nothing. -/
theorem not_holds_create (hb : ns.Bounded) (hempty : ∀ s, body.shelf s = ∅)
    (h : ns.create name body = some (id, ns')) : ¬ ns'.Holds id s i := by
  rw [holds_create hb hempty h]
  intro hold
  have hlive := hold.isSome_kind?
  rw [(create_eq_some_iff.1 h).2.1, hb.kind?_nextId] at hlive
  cases hlive

/-- Removing an entity takes away what it held, and nothing else. -/
theorem holds_prune : (ns.prune id).Holds o s i ↔ o ≠ id ∧ ns.Holds o s i := by
  unfold Holds
  rw [get?_prune]
  split
  · next ho => exact iff_of_false (fun ⟨_, he, _⟩ ↦ nomatch he) fun h ↦ h.1 ho
  · next ho => exact (and_iff_right ho).symm

/-- A change that puts one more entity on one shelf. -/
theorem holds_modify (he : ns.get? owner = some e)
    (hf : ∀ s i, i ∈ (f e.body).shelf s ↔ i ∈ e.body.shelf s ∨ s = added ∧ i = child) :
    (ns.modify owner f).Holds o s i ↔ ns.Holds o s i ∨ o = owner ∧ s = added ∧ i = child := by
  by_cases ho : o = owner
  · subst ho
    unfold Holds
    simp only [get?_modify, if_pos, he, Option.map_some, Option.some.injEq, exists_eq_left', hf,
      true_and]
  · have hsame : (ns.modify owner f).Holds o s i ↔ ns.Holds o s i :=
      holds_congr (by rw [get?_modify, if_neg ho])
    rw [hsame]
    exact ⟨.inl, fun h ↦ h.resolve_right fun h ↦ ho h.1⟩

/-- Attaching an entity to a directory puts it on the shelf for its kind. -/
theorem mem_shelf_attached {b : Body} (hb : b.kind = .package ∨ b.kind = .component) :
    i ∈ (b.mapChildren fun c ↦
        match kind with
        | .package => { c with packages := c.packages.insert child }
        | _ => { c with components := c.components.insert child }).shelf s ↔
      i ∈ b.shelf s ∨ s = .attached kind ∧ i = child := by
  cases b with
  | package | component =>
    cases kind <;> cases s <;>
      simp [Body.mapChildren, Body.shelf, Shelf.attached, or_comm, @eq_comm _ child]
  | cls | function => exact absurd hb (by simp [Body.kind])

/-- Where there is a package or a component there is an entity of that kind. -/
theorem exists_get?_of_container
    (h : ns.kind? id = some .package ∨ ns.kind? id = some .component) :
    ∃ e, ns.get? id = some e ∧ (e.kind = .package ∨ e.kind = .component) := by
  rcases h with h | h
  · obtain ⟨e, he, hkind⟩ := Option.map_eq_some_iff.1 h
    exact ⟨e, he, .inl hkind⟩
  · obtain ⟨e, he, hkind⟩ := Option.map_eq_some_iff.1 h
    exact ⟨e, he, .inr hkind⟩

/-- What is attached to a module or a directory. -/
theorem holds_attach
    (h : ns.kind? owner = some .package ∨ ns.kind? owner = some .component) :
    (ns.attach owner child kind).Holds o s i ↔
      ns.Holds o s i ∨ o = owner ∧ s = .attached kind ∧ i = child := by
  obtain ⟨e, he, hkind⟩ := exists_get?_of_container h
  exact holds_modify he fun s i ↦ mem_shelf_attached hkind

/-! ### Additions -/

end Namespace

/-- An entity after additions: it still has its name, its kind and all that it held. -/
structure Entity.Wider (e e' : Entity) : Prop where
  qualName : e'.qualName = e.qualName
  kind : e'.body.kind = e.body.kind
  isDirectory : e'.body.isDirectory = e.body.isDirectory
  shelf : ∀ s i, i ∈ e.body.shelf s → i ∈ e'.body.shelf s

theorem Entity.Wider.refl (e : Entity) : e.Wider e :=
  ⟨rfl, rfl, rfl, fun _ _ h ↦ h⟩

theorem Entity.Wider.trans {e e' e'' : Entity} (h : e.Wider e') (h' : e'.Wider e'') :
    e.Wider e'' where
  qualName := h'.qualName.trans h.qualName
  kind := h'.kind.trans h.kind
  isDirectory := h'.isDirectory.trans h.isDirectory
  shelf s i hi := h'.shelf s i (h.shelf s i hi)

namespace Namespace

variable {ns ns' ns'' : Namespace} {id owner i : Id} {name q : QualName} {body : Body}
  {s : Shelf} {kind : EntityKind} {f : Body → Body}

/-- The entities of the first namespace are in the second, after additions. -/
def Widens (ns ns' : Namespace) : Prop :=
  ∀ i e, ns.get? i = some e → ∃ e', ns'.get? i = some e' ∧ e.Wider e'

namespace Widens

theorem refl (ns : Namespace) : ns.Widens ns :=
  fun _ e he ↦ ⟨e, he, .refl e⟩

theorem trans (h : ns.Widens ns') (h' : ns'.Widens ns'') : ns.Widens ns'' := by
  intro i e he
  obtain ⟨e', he', hwider⟩ := h i e he
  obtain ⟨e'', he'', hwider'⟩ := h' i e' he'
  exact ⟨e'', he'', hwider.trans hwider'⟩

/-- An entity keeps its number, its kind and its name when the namespace widens. -/
theorem hasEntity (h : ns.Widens ns') (hid : ns.HasEntity id kind name) :
    ns'.HasEntity id kind name := by
  obtain ⟨e, he, hkind, hname⟩ := hid
  obtain ⟨e', he', hwider⟩ := h id e he
  exact ⟨e', he', hwider.kind.trans hkind, hwider.qualName.trans hname⟩

theorem kind? (h : ns.Widens ns') (hk : ns.kind? id = some kind) : ns'.kind? id = some kind := by
  obtain ⟨name, hid⟩ := exists_hasEntity hk
  exact (h.hasEntity hid).kind?

/-- What is held is still held when the namespace widens. -/
theorem holds (h : ns.Widens ns') (hi : ns.Holds owner s i) : ns'.Holds owner s i := by
  obtain ⟨e, he, hi⟩ := hi
  obtain ⟨e', he', hwider⟩ := h owner e he
  exact ⟨e', he', hwider.shelf s i hi⟩

/-- A directory is still one when the namespace widens. -/
theorem ofDirectory (h : ns.Widens ns') (hid : ns.OfDirectory id) : ns'.OfDirectory id := by
  obtain ⟨e, he, hdirectory⟩ := hid
  obtain ⟨e', he', hwider⟩ := h id e he
  refine ⟨e', he', ?_⟩
  rwa [Body.OfDirectory, hwider.kind, hwider.isDirectory]

/-- A component that declares something still does when the namespace widens. -/
theorem declares (h : ns.Widens ns') (hid : ns.declares id) : ns'.declares id := by
  obtain ⟨i, hi⟩ := declares_iff.1 hid
  exact declares_iff.2 ⟨i, hi.imp h.holds h.holds⟩

/-- A name still leads to the same number when a consistent namespace widens to another. -/
theorem lookup (h : ns.Widens ns') (hc : ns.Consistent) (hc' : ns'.Consistent)
    (hq : ns.lookup q = some id) : ns'.lookup q = some id := by
  obtain ⟨e, he, rfl⟩ := hc.exists_of_lookup q id hq
  obtain ⟨e', he', hwider⟩ := h id e he
  rw [← hwider.qualName]
  exact hc'.lookup_of_get? id e' he'

/-- An entity keeps its parent when a consistent namespace widens to another. -/
theorem parent? (h : ns.Widens ns') (hc : ns.Consistent) (hc' : ns'.Consistent)
    (hp : ns.parent? id = some owner) : ns'.parent? id = some owner := by
  obtain ⟨e, he, name, hname, hlookup⟩ := parent?_eq_some_iff.1 hp
  obtain ⟨e', he', hwider⟩ := h id e he
  refine parent?_eq_some_iff.2 ⟨e', he', name, ?_, h.lookup hc hc' hlookup⟩
  rw [hwider.qualName, hname]

/-- A removal of what was not there before. -/
theorem prune (h : ns.Widens ns') (hfresh : ns.kind? id = none) : ns.Widens (ns'.prune id) := by
  intro i e he
  obtain ⟨e', he', hwider⟩ := h i e he
  refine ⟨e', ?_, hwider⟩
  rw [get?_prune, if_neg ?_, he']
  rintro rfl
  rw [Namespace.kind?, he] at hfresh
  cases hfresh

end Widens

/-- Creating an entity widens a namespace. -/
theorem widens_create (hb : ns.Bounded) (h : ns.create name body = some (id, ns')) :
    ns.Widens ns' := by
  intro i e he
  have hne : i ≠ id := HasEntity.ne_of_create ⟨e, he, rfl, rfl⟩ hb h
  exact ⟨e, by rw [get?_create h, if_neg hne, he], .refl e⟩

/-- A change that only adds to one entity widens a namespace. -/
theorem widens_modify (hf : ∀ e, ns.get? id = some e → e.Wider { e with body := f e.body }) :
    ns.Widens (ns.modify id f) := by
  intro i e he
  by_cases hi : i = id
  · subst hi
    exact ⟨_, by rw [get?_modify, if_pos rfl, he]; rfl, hf e he⟩
  · exact ⟨e, by rw [get?_modify, if_neg hi, he], .refl e⟩

/-- Attaching an entity to another widens a namespace. -/
theorem widens_attach (ns : Namespace) (owner child : Id) (kind : EntityKind) :
    ns.Widens (ns.attach owner child kind) := by
  refine widens_modify fun e he ↦ ⟨rfl, ?_, ?_, fun s i hi ↦ ?_⟩
  · simp only [Body.kind_mapChildren]
  · simp only [Body.isDirectory_mapChildren]
  · by_cases hb : e.body.kind = .package ∨ e.body.kind = .component
    · exact (mem_shelf_attached hb).2 (.inl hi)
    · obtain ⟨_, _, body⟩ := e
      cases body with
      | package | component => exact absurd hb (by simp [Body.kind])
      | cls | function => exact hi

end Namespace

end CodeAtlas
