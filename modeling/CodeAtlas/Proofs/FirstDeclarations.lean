import CodeAtlas.Proofs.Turns

/-!
# What the first declaration of a name decides

A declaration is entered with its parameters and, if it is a class, its methods. A later one of the
same name adds nothing of all that, so a module has the entities that the first declarations of each
name give it, and so has each class of a module (`Namespace.declareAll_firsts`).

## What declarations give

What is entered is described by what an entity holds in the end (`Namespace.Realizes`): each thing
that it holds is as the first declaration of its short name says, and the names of all declarations
are taken. The same is said of a module and its declarations and of a class and its methods. A
function is as a declaration says if it has its parameters (`IsFunction`), and a class if it
realizes its methods (`IsDeclared`).

## What leaves declarations alone

`Realizes` is kept by whatever leaves declarations alone (`Namespace.Retains`), which is all that
happens after the declarations of a file were entered: names do not get lost, and entities stay
alike, that is, with their names, kinds and parameters and with what they declare (`Entity.Alike`).
While declarations are entered, at most the component is changed that they are entered into.

## Until the end of building

A file that was read is transcribed if its component realizes the declarations in it
(`Namespace.Transcribes`). The files of a directory are transcribed at its turn, and stay so
(`Project.Turn.transcribes`), so those of what is built are (`Project.transcribes_build`).
-/

namespace CodeAtlas

/-! ### Declarations that add nothing -/

namespace Declaration

/-- A declaration with, of the methods of each name, only the first. -/
def withFirstMethods : Declaration → Declaration
  | classDecl name methods => classDecl name (firstsBy (·.name.text) methods)
  | functionDecl f => functionDecl f

/-- Of the declarations of each name only the first, with the first methods of each name. -/
def firsts (declarations : List Declaration) : List Declaration :=
  (firstsBy (·.name.text) declarations).map withFirstMethods

end Declaration

namespace Namespace

section Idle

variable {ns ns' : Namespace} {owner id : Id} {name q : QualName} {body : Body}

/-- After a creation the new name is taken, and those that were. -/
theorem isSome_lookup_create (h : ns.create name body = some (id, ns'))
    (hq : (ns.lookup q).isSome ∨ q = name) : (ns'.lookup q).isSome := by
  rw [lookup_create h]
  split
  · rfl
  · next hne => exact hq.resolve_right hne

/-- A method whose name is taken adds nothing. -/
theorem declareMethod_eq_self {f : FunctionDecl}
    (h : (ns.lookup (name.child f.name.text)).isSome) : ns.declareMethod owner name f = ns := by
  have hnone : ns.create (name.child f.name.text) (functionBody f) = none := create_eq_none_iff.2 h
  simp only [declareMethod, hnone]

/-- After a method was entered its name is taken, and those that were. -/
theorem isSome_lookup_declareMethod {f : FunctionDecl}
    (hq : (ns.lookup q).isSome ∨ q = name.child f.name.text) :
    ((ns.declareMethod owner name f).lookup q).isSome := by
  simp only [declareMethod]
  split
  · next hnone =>
    rcases hq with hq | rfl
    · exact hq
    · exact create_eq_none_iff.1 hnone
  · next hcreate =>
    rw [lookup_modify]
    exact isSome_lookup_create hcreate hq

theorem isSome_lookup_foldl_declareMethod (methods : List FunctionDecl)
    (hq : (ns.lookup q).isSome) :
    ((methods.foldl (·.declareMethod owner name ·) ns).lookup q).isSome := by
  induction methods generalizing ns with
  | nil => exact hq
  | cons f rest ih => exact ih (isSome_lookup_declareMethod (.inl hq))

/-- Entering methods is entering the first ones of each name. -/
theorem foldl_firstMethods (owner : Id) (name : QualName) (methods : List FunctionDecl)
    (ns : Namespace) : (firstsBy (·.name.text) methods).foldl (·.declareMethod owner name ·) ns =
      methods.foldl (·.declareMethod owner name ·) ns :=
  @foldl_firstsBy _ _ _ _ (fun ns short ↦ (ns.lookup (name.child short)).isSome)
    (fun _ _ ↦ declareMethod_eq_self) (fun _ _ ↦ isSome_lookup_declareMethod (.inr rfl))
    (fun _ _ _ h ↦ isSome_lookup_declareMethod (.inl h)) methods ns

/-- A declaration whose name is taken adds nothing, with all its methods. -/
theorem declare_eq_self {d : Declaration} (h : (ns.lookup (name.child d.name.text)).isSome) :
    ns.declare owner name d = ns := by
  cases d with
  | classDecl className methods =>
    have hnone : ns.create (name.child className.text) (.cls {}) = none := create_eq_none_iff.2 h
    simp only [declare, hnone]
  | functionDecl f =>
    have hnone : ns.create (name.child f.name.text) (functionBody f) = none :=
      create_eq_none_iff.2 h
    simp only [declare, hnone]

/-- After a declaration was entered its name is taken, and those that were. -/
theorem isSome_lookup_declare {d : Declaration}
    (hq : (ns.lookup q).isSome ∨ q = name.child d.name.text) :
    ((ns.declare owner name d).lookup q).isSome := by
  by_cases htaken : (ns.lookup (name.child d.name.text)).isSome
  · rw [declare_eq_self htaken]
    rcases hq with hq | rfl
    · exact hq
    · exact htaken
  · cases d with
    | classDecl className methods =>
      simp only [declare]
      split
      · next hnone => exact absurd (create_eq_none_iff.1 hnone) htaken
      · next hcreate =>
        refine isSome_lookup_foldl_declareMethod methods ?_
        rw [lookup_modify]
        exact isSome_lookup_create hcreate hq
    | functionDecl f =>
      simp only [declare]
      split
      · next hnone => exact absurd (create_eq_none_iff.1 hnone) htaken
      · next hcreate =>
        rw [lookup_modify]
        exact isSome_lookup_create hcreate hq

/-- Entering a class is entering it with its first methods of each name. -/
theorem declare_withFirstMethods (ns : Namespace) (owner : Id) (name : QualName)
    (d : Declaration) : ns.declare owner name d.withFirstMethods = ns.declare owner name d := by
  cases d with
  | classDecl className methods =>
    simp only [Declaration.withFirstMethods, declare, foldl_firstMethods]
  | functionDecl f => rfl

/-- **Later declarations add nothing.** Entering declarations is entering the first ones of each
name, with their first methods of each name. -/
theorem declareAll_firsts (ns : Namespace) (owner : Id) (declarations : List Declaration) :
    ns.declareAll owner (Declaration.firsts declarations) = ns.declareAll owner declarations := by
  unfold declareAll
  cases ns.get? owner with
  | none => rfl
  | some e =>
    show List.foldl _ ns (List.map _ _) = _
    rw [List.foldl_map]
    simp only [declare_withFirstMethods]
    exact @foldl_firstsBy _ _ _ _ (fun ns short ↦ (ns.lookup (e.qualName.child short)).isSome)
      (fun _ _ ↦ declare_eq_self) (fun _ _ ↦ isSome_lookup_declare (.inr rfl))
      (fun _ _ _ h ↦ isSome_lookup_declare (.inl h)) declarations ns

end Idle

/-! ### What declarations give -/

/-- The short name of an entity. -/
def shortName (ns : Namespace) (id : Id) : String :=
  ((ns.get? id).map Entity.name).getD ""

/-- The parameters of an entity, if it is a function. -/
def params? (ns : Namespace) (id : Id) : Option (List Variable) :=
  (ns.get? id).bind fun e ↦ e.body.function?.map Function.params

/-- What an entity of some kind and name holds is what a list of declarations says: each thing is as
the first one of its short name says, and the names of all of them are taken. -/
structure Realizes {α : Type} (key : α → Ident) (Is : Namespace → Id → α → Prop)
    (kind : EntityKind) (name : QualName) (ns : Namespace) (owner : Id) (items : List α) :
    Prop where
  entity : ns.HasEntity owner kind name
  made : ∀ s i, s.isDeclared = true → ns.Holds owner s i →
    ∃ a, (items.find? fun b ↦ (key b).text = ns.shortName i) = some a ∧ Is ns i a
  taken : ∀ a ∈ items, (ns.lookup (name.child (key a).text)).isSome

/-- An entity is a function with the parameters of a declaration. -/
def IsFunction (ns : Namespace) (id : Id) (f : FunctionDecl) : Prop :=
  ns.params? id = some (f.params.map fun p ↦ { name := p.text })

/-- An entity is what a declaration says: a function with its parameters, or a class with its
methods. -/
def IsDeclared (ns : Namespace) (id : Id) : Declaration → Prop
  | .classDecl _ methods => ∃ name, ns.Realizes FunctionDecl.name IsFunction .cls name id methods
  | .functionDecl f => ns.IsFunction id f

end Namespace

/-! ### What leaves declarations alone -/

/-- Two entities that differ at most in what is attached to them, imported and found: they have the
same name, kind and parameters and hold the same declarations. -/
structure Entity.Alike (e e' : Entity) : Prop where
  qualName : e'.qualName = e.qualName
  kind : e'.kind = e.kind
  shelf : ∀ s, s.isDeclared = true → e'.body.shelf s = e.body.shelf s
  params : e'.body.function?.map Function.params = e.body.function?.map Function.params

theorem Entity.Alike.refl (e : Entity) : e.Alike e :=
  ⟨rfl, rfl, fun _ _ ↦ rfl, rfl⟩

theorem Entity.Alike.trans {e e' e'' : Entity} (h : e.Alike e') (h' : e'.Alike e'') :
    e.Alike e'' where
  qualName := h'.qualName.trans h.qualName
  kind := h'.kind.trans h.kind
  shelf s hs := (h'.shelf s hs).trans (h.shelf s hs)
  params := h'.params.trans h.params

/-- What is attached to an entity is not declared by it. -/
theorem Entity.alike_mapChildren (e : Entity) (f : Containment → Containment) :
    e.Alike { e with body := e.body.mapChildren f } where
  qualName := rfl
  kind := Body.kind_mapChildren _ _
  shelf _ hs := Body.shelf_mapChildren hs _ _
  params := by
    obtain ⟨_, _, body⟩ := e
    cases body <;> rfl

namespace Namespace

variable {ns ns' ns'' created : Namespace} {changed : Id → Prop} {owner id i : Id}
  {name : QualName} {kind : EntityKind}

/-- The entities of the first namespace are in the second as they were declared, except those that
are changed, and no name gets lost. -/
structure Retains (changed : Id → Prop) (ns ns' : Namespace) : Prop where
  alike : ∀ i e, ¬ changed i → ns.get? i = some e → ∃ e', ns'.get? i = some e' ∧ e.Alike e'
  names : ∀ q, (ns.lookup q).isSome → (ns'.lookup q).isSome

/-- What is retained in two steps is retained in both together. -/
theorem Retains.trans (h : ns.Retains changed ns') (h' : ns'.Retains changed ns'') :
    ns.Retains changed ns'' := by
  refine ⟨fun i e hi he ↦ ?_, fun q hq ↦ h'.names q (h.names q hq)⟩
  obtain ⟨e', he', halike⟩ := h.alike i e hi he
  obtain ⟨e'', he'', halike'⟩ := h'.alike i e' hi he'
  exact ⟨e'', he'', halike.trans halike'⟩

theorem HasEntity.shortName (h : ns.HasEntity id kind name) : ns.shortName id = name.name := by
  obtain ⟨e, he, -, rfl⟩ := h
  rw [Namespace.shortName, he]
  rfl

/-- An entity that is retained keeps its short name. -/
theorem Retains.shortName_eq (h : ns.Retains changed ns') (hi : ¬ changed i)
    (hlive : (ns.kind? i).isSome) : ns'.shortName i = ns.shortName i := by
  obtain ⟨kind, hkind⟩ := Option.isSome_iff_exists.1 hlive
  obtain ⟨name, hentity⟩ := exists_hasEntity hkind
  have ⟨e, he, hkind, hname⟩ := hentity
  obtain ⟨e', he', halike⟩ := h.alike i e hi he
  have hentity' : ns'.HasEntity i kind name :=
    ⟨e', he', halike.kind.trans hkind, halike.qualName.trans hname⟩
  rw [hentity.shortName, hentity'.shortName]

theorem IsFunction.kind? {f : FunctionDecl} (h : ns.IsFunction id f) :
    ns.kind? id = some .function := by
  obtain ⟨⟨_, _, body⟩, he, hparams⟩ := Option.bind_eq_some_iff.1 h
  rw [Namespace.kind?, he]
  cases body with
  | function => rfl
  | package | component | cls => cases hparams

/-- A function that is retained keeps its parameters. -/
theorem IsFunction.retains {f : FunctionDecl} (h : ns.IsFunction id f)
    (hretains : ns.Retains changed ns') (hid : ¬ changed id) : ns'.IsFunction id f := by
  obtain ⟨e, he, hparams⟩ := Option.bind_eq_some_iff.1 h
  obtain ⟨e', he', halike⟩ := hretains.alike id e hid he
  refine Option.bind_eq_some_iff.2 ⟨e', he', ?_⟩
  rw [halike.params]
  exact hparams

section Realizes

variable {α : Type} {key : α → Ident} {Is : Namespace → Id → α → Prop} {items : List α}

/-- What an entity holds is kept where the entity and what it holds are. -/
theorem Realizes.retains (h : ns.Realizes key Is kind name owner items)
    (hretains : ns.Retains changed ns') (howner : ¬ changed owner)
    (hIs : ∀ i a, Is ns i a → ¬ changed i ∧ (ns.kind? i).isSome ∧ Is ns' i a) :
    ns'.Realizes key Is kind name owner items := by
  obtain ⟨e, he, hkind, hname⟩ := h.entity
  obtain ⟨e', he', halike⟩ := hretains.alike owner e howner he
  refine ⟨⟨e', he', halike.kind.trans hkind, halike.qualName.trans hname⟩, fun s i hs hi ↦ ?_,
    fun a ha ↦ hretains.names _ (h.taken a ha)⟩
  have hold : ns.Holds owner s i := by
    obtain ⟨o, ho, hi⟩ := hi
    cases he'.symm.trans ho
    exact ⟨e, he, halike.shelf s hs ▸ hi⟩
  obtain ⟨a, hfirst, ha⟩ := h.made s i hs hold
  obtain ⟨hchanged, hlive, ha⟩ := hIs i a ha
  exact ⟨a, by rw [hretains.shortName_eq hchanged hlive, hfirst], ha⟩

/-- A declaration whose name is taken changes nothing. -/
theorem Realizes.skip (h : ns.Realizes key Is kind name owner items) {a : α}
    (htaken : (ns.lookup (name.child (key a).text)).isSome) :
    ns.Realizes key Is kind name owner (items ++ [a]) := by
  refine ⟨h.entity, fun s i hs hi ↦ ?_, fun b hb ↦ ?_⟩
  · obtain ⟨b, hfirst, hb⟩ := h.made s i hs hi
    exact ⟨b, by rw [List.find?_append, hfirst, Option.some_or], hb⟩
  · rcases List.mem_append.1 hb with hb | hb
    · exact h.taken b hb
    · rwa [List.mem_singleton.1 hb]

/-- A declaration whose name is free is the first one of its name, and what it declares is held
from then on. -/
theorem Realizes.enter (h : ns.Realizes key Is kind name owner items) (htidy : ns.Tidy) {a : α}
    {body : Body} (hbody : Body.Declarable kind body)
    (hcreate : ns.create (name.child (key a).text) body = some (id, created))
    (hrest : (created.modify owner (Body.declaring (key a).text (name.child (key a).text) id
      body.kind)).Declares id ns')
    (hIs : ∀ i b, Is ns i b → (ns.kind? i).isSome ∧ Is ns' i b) (hnew : Is ns' id a) :
    ns'.Realizes key Is kind name owner (items ++ [a]) := by
  have ⟨e, he, hkind, hname⟩ := h.entity
  subst hname hkind
  have hstep := (DeclareStep.intro (Nat.le_refl owner) he hbody hcreate).extended htidy
  have hextended := hrest.extended hstep.tidy
  have hwidens := hstep.widens.trans hextended.widens
  have hlt : owner < id := by
    rw [(create_eq_some_iff.1 hcreate).2.1]
    exact htidy.bounded owner (by rw [Namespace.kind?, he]; rfl)
  have hid : ns'.HasEntity id body.kind (e.qualName.child (key a).text) :=
    hextended.widens.hasEntity ((hasEntity_create hcreate).modify (Body.kind_declaring _ _ _ _))
  -- the names of the declarations before are taken, and this one is free
  have hfirst : (items.find? fun b ↦ (key b).text = (key a).text) = none := by
    refine List.find?_eq_none.2 fun b hb hname ↦ ?_
    have htaken := h.taken b hb
    rw [of_decide_eq_true hname, (create_eq_some_iff.1 hcreate).1] at htaken
    cases htaken
  refine ⟨hwidens.hasEntity h.entity, fun s i hs hi ↦ ?_, fun b hb ↦ ?_⟩
  · rw [holds_congr (hextended.below owner hlt),
      holds_declaring htidy.bounded he hbody hcreate] at hi
    rcases hi with hi | ⟨-, -, rfl⟩
    · obtain ⟨b, hfirst, hb⟩ := h.made s i hs hi
      obtain ⟨hlive, hb⟩ := hIs i b hb
      obtain ⟨_, hlive⟩ := Option.isSome_iff_exists.1 hlive
      obtain ⟨_, hentity⟩ := exists_hasEntity hlive
      refine ⟨b, ?_, hb⟩
      rw [(hwidens.hasEntity hentity).shortName, ← hentity.shortName, List.find?_append, hfirst,
        Option.some_or]
    · refine ⟨a, ?_, hnew⟩
      rw [hid.shortName, QualName.name_child (key a).dotFree, List.find?_append, hfirst]
      simp
  · rcases List.mem_append.1 hb with hb | hb
    · obtain ⟨i, hi⟩ := Option.isSome_iff_exists.1 (h.taken b hb)
      rw [hwidens.lookup htidy.toConsistent hextended.tidy.toConsistent hi]
      rfl
    · rw [List.mem_singleton.1 hb, hid.lookup hextended.tidy.toConsistent]
      rfl

end Realizes

/-! ### Classes and modules -/

section Declaring

variable {e : Entity} {body : Body} {d : Declaration} {declarations : List Declaration}
  {f : FunctionDecl} {methods : List FunctionDecl}

/-- What is declared is a class or a function. -/
theorem IsDeclared.kind? (h : ns.IsDeclared id d) :
    ns.kind? id = some .cls ∨ ns.kind? id = some .function := by
  cases d with
  | classDecl =>
    obtain ⟨name, hrealizes⟩ := h
    exact .inl hrealizes.entity.kind?
  | functionDecl f => exact .inr (IsFunction.kind? h)

/-- Classes and functions are kept where at most components are changed. -/
theorem IsDeclared.retains (h : ns.IsDeclared id d) (hretains : ns.Retains changed ns')
    (hchanged : ∀ i, changed i → ns.kind? i = some .component) : ns'.IsDeclared id d := by
  have hfunction : ∀ i g, ns.IsFunction i g → ¬ changed i := by
    intro i g hg hi
    cases hg.kind?.symm.trans (hchanged i hi)
  cases d with
  | functionDecl g => exact IsFunction.retains h hretains (hfunction id g h)
  | classDecl =>
    obtain ⟨name, hrealizes⟩ := h
    refine ⟨name, hrealizes.retains hretains (fun hid ↦ ?_) fun i g hg ↦ ?_⟩
    · cases hrealizes.entity.kind?.symm.trans (hchanged id hid)
    · exact ⟨hfunction i g hg, by rw [hg.kind?]; rfl, hg.retains hretains (hfunction i g hg)⟩

/-- Declaring something changes nothing but the entity that declares it. -/
theorem retains_declares (htidy : ns.Tidy) (he : ns.get? owner = some e) {short : Ident}
    (hbody : Body.Declarable e.kind body)
    (hcreate : ns.create (e.qualName.child short.text) body = some (id, created))
    (hrest : (created.modify owner (Body.declaring short.text (e.qualName.child short.text) id
      body.kind)).Declares id ns') : ns.Retains (· = owner) ns' := by
  have hstep := (DeclareStep.intro (Nat.le_refl owner) he hbody hcreate).extended htidy
  have hextended := hrest.extended hstep.tidy
  refine ⟨fun i e' hi he' ↦ ?_, fun q hq ↦ ?_⟩
  · have hlt : i < id := by
      rw [(create_eq_some_iff.1 hcreate).2.1]
      exact htidy.bounded i (by rw [Namespace.kind?, he']; rfl)
    refine ⟨e', ?_, .refl e'⟩
    rw [hextended.below i hlt, get?_modify, if_neg hi, get?_create hcreate,
      if_neg (Nat.ne_of_lt hlt), he']
  · obtain ⟨i, hi⟩ := Option.isSome_iff_exists.1 hq
    have hwidens := hstep.widens.trans hextended.widens
    rw [hwidens.lookup htidy.toConsistent hextended.tidy.toConsistent hi]
    rfl

theorem isFunction_declaring (hcreate : ns.create name (functionBody f) = some (id, created))
    (hne : id ≠ owner) (g : Body → Body) : (created.modify owner g).IsFunction id f := by
  unfold IsFunction params?
  rw [get?_modify, if_neg hne, get?_create hcreate, if_pos rfl]
  rfl

/-- A class realizes its methods so far and one more after that was entered. -/
theorem Realizes.declareMethod
    (h : ns.Realizes FunctionDecl.name IsFunction .cls name owner methods) (htidy : ns.Tidy)
    (f : FunctionDecl) : (ns.declareMethod owner name f).Realizes FunctionDecl.name IsFunction .cls
      name owner (methods ++ [f]) := by
  have ⟨e, he, hkind, hname⟩ := h.entity
  cases hcreate : ns.create (name.child f.name.text) (functionBody f) with
  | none =>
    have htaken := create_eq_none_iff.1 hcreate
    rw [declareMethod_eq_self htaken]
    exact h.skip htaken
  | some result =>
    obtain ⟨id, created⟩ := result
    have hne : id ≠ owner := (h.entity.ne_of_create htidy.bounded hcreate).symm
    simp only [Namespace.declareMethod, hcreate]
    rw [← modify_declaring_method (h.entity.create htidy.bounded hcreate).kind?]
    subst hname
    have hretains := retains_declares htidy he (hkind ▸ .method f) hcreate .refl
    refine h.enter htidy (.method f) hcreate .refl (fun i g hg ↦ ⟨by rw [hg.kind?]; rfl, ?_⟩)
      (isFunction_declaring hcreate hne _)
    refine hg.retains hretains ?_
    rintro rfl
    cases hg.kind?.symm.trans h.entity.kind?

/-- A class realizes its methods so far and further ones after these were entered. -/
theorem Realizes.foldl_declareMethod
    (h : ns.Realizes FunctionDecl.name IsFunction .cls name owner methods) (htidy : ns.Tidy)
    (further : List FunctionDecl) : (further.foldl (·.declareMethod owner name ·) ns).Realizes
      FunctionDecl.name IsFunction .cls name owner (methods ++ further) := by
  induction further generalizing ns methods with
  | nil =>
    rw [List.append_nil]
    exact h
  | cons f rest ih =>
    have hdeclares := declares_declareMethod f (Nat.le_refl owner) htidy h.entity
    have hrest := ih (h.declareMethod htidy f) (hdeclares.extended htidy).tidy
    rwa [List.append_assoc, List.singleton_append] at hrest

/-- What was just declared is as the declaration says. -/
theorem isDeclared_declare (htidy : ns.Tidy) (howner : ns.HasEntity owner .component name)
    (hcreate : ns.create (name.child d.name.text) d.body = some (id, created)) :
    (ns.declare owner name d).IsDeclared id d := by
  have hne : id ≠ owner := (howner.ne_of_create htidy.bounded hcreate).symm
  cases d with
  | functionDecl f =>
    have hcreate : ns.create (name.child f.name.text) (functionBody f) = some (id, created) :=
      hcreate
    simp only [declare, hcreate]
    exact isFunction_declaring hcreate hne _
  | classDecl className methods =>
    have hcreate : ns.create (name.child className.text) (.cls {}) = some (id, created) := hcreate
    simp only [declare, hcreate]
    rw [← modify_declaring_class (howner.create htidy.bounded hcreate).kind?]
    have hstart : (created.modify owner (Body.declaring className.text
        (name.child className.text) id .cls)).Realizes FunctionDecl.name IsFunction .cls
          (name.child className.text) id [] := by
      refine ⟨(hasEntity_create hcreate).modify (Body.kind_declaring _ _ _ _), fun s i _ hi ↦ ?_,
        fun f hf ↦ absurd hf List.not_mem_nil⟩
      have hsame : ∀ f, (created.modify owner f).get? id = created.get? id := fun f ↦ by
        rw [get?_modify, if_neg hne]
      have hi := (holds_congr (hsame _)).1 hi
      exact absurd hi (not_holds_create htidy.bounded Body.Declarable.cls.shelf_eq hcreate)
    exact ⟨_, hstart.foldl_declareMethod (htidy.create hcreate).modify methods⟩

/-- A component realizes its declarations so far and one more after that was entered. -/
theorem Realizes.declare (h : ns.Realizes Declaration.name IsDeclared .component name owner
    declarations) (htidy : ns.Tidy) (d : Declaration) :
    (ns.declare owner name d).Realizes Declaration.name IsDeclared .component name owner
      (declarations ++ [d]) := by
  rcases declare_cases d htidy h.entity with ⟨htaken, hsame⟩ | ⟨id, created, hcreate, hrest⟩
  · rw [hsame]
    exact h.skip htaken
  · have ⟨e, he, hkind, hname⟩ := h.entity
    subst hname
    have hretains := retains_declares htidy he (hkind ▸ d.declarable_body) hcreate hrest
    refine h.enter htidy d.declarable_body hcreate hrest (fun i d' hd' ↦ ⟨?_, ?_⟩)
      (isDeclared_declare htidy h.entity hcreate)
    · rcases hd'.kind? with hkind | hkind <;> rw [hkind] <;> rfl
    · exact hd'.retains hretains fun j hj ↦ hj ▸ h.entity.kind?

/-- **The first declaration decides.** A component that has declared nothing yet holds, after its
declarations were entered, what the first one of each name says. -/
theorem realizes_declareAll (htidy : ns.Tidy) (howner : ns.HasEntity owner .component name)
    (hempty : ∀ s i, ¬ ns.Holds owner s i) (declarations : List Declaration) :
    (ns.declareAll owner declarations).Realizes Declaration.name IsDeclared .component name owner
      declarations := by
  have hfold : ∀ (further declarations : List Declaration) (ns : Namespace), ns.Tidy →
      ns.Realizes Declaration.name IsDeclared .component name owner declarations →
      (further.foldl (·.declare owner name ·) ns).Realizes Declaration.name IsDeclared .component
        name owner (declarations ++ further) := by
    intro further
    induction further with
    | nil =>
      intro declarations ns _ h
      rw [List.append_nil]
      exact h
    | cons d rest ih =>
      intro declarations ns htidy h
      have hdeclares := declares_declare d (Nat.le_refl owner) htidy h.entity
      have hrest := ih _ _ (hdeclares.extended htidy).tidy (h.declare htidy d)
      rwa [List.append_assoc, List.singleton_append] at hrest
  have ⟨e, he, _, hname⟩ := howner
  rw [declareAll, he]
  subst hname
  exact hfold declarations [] ns htidy
    ⟨howner, fun s i _ hi ↦ absurd hi (hempty s i), fun _ hd ↦ absurd hd List.not_mem_nil⟩

end Declaring

/-! ### Until the end of building -/

section Building

variable {project : Project} {directory : Directory} {before : Namespace} {draft draft' : Draft}
  {f : SourceFile}

/-- A file was read in a directory of the project, and its component holds what it declares first
of each name. -/
def Transcribes (project : Project) (ns : Namespace) (f : SourceFile) : Prop :=
  ∃ d ∈ project.directories, ∃ file bytes statements, f.path = d.path ++ [file] ∧
    .file file bytes ∈ d.entries ∧ project.parse f.path bytes = .ok statements ∧
      ∃ name, ns.Realizes Declaration.name IsDeclared .component name f.component
        (Declaration.ofStmts statements)

/-- A file stays transcribed while its component is retained. -/
theorem Transcribes.retains (h : ns.Transcribes project f)
    (hretains : ns.Retains (fun _ ↦ False) ns') : ns'.Transcribes project f := by
  obtain ⟨d, hd, file, bytes, statements, hpath, hfile, hparse, name, hrealizes⟩ := h
  refine ⟨d, hd, file, bytes, statements, hpath, hfile, hparse, name,
    hrealizes.retains hretains id fun i a ha ↦ ⟨id, ?_, ha.retains hretains fun _ ↦ False.elim⟩⟩
  rcases ha.kind? with hkind | hkind <;> rw [hkind] <;> rfl

/-- What leaves all numbers in use as they are. -/
theorem retains_of_below (htidy : ns.Tidy) (hns' : ns'.Consistent)
    (h : ∀ i < ns.nextId, ns'.get? i = ns.get? i) : ns.Retains (fun _ ↦ False) ns' := by
  have hget : ∀ i e, ns.get? i = some e → ns'.get? i = some e := fun i e he ↦
    (h i (htidy.bounded i (by rw [kind?, he]; rfl))).trans he
  refine ⟨fun i e _ he ↦ ⟨e, hget i e he, .refl e⟩, fun q hq ↦ ?_⟩
  obtain ⟨i, hi⟩ := Option.isSome_iff_exists.1 hq
  obtain ⟨e, he, rfl⟩ := htidy.exists_of_lookup q i hi
  rw [hns'.lookup_of_get? i e (hget i e he)]
  rfl

/-- Attaching an entity to another leaves declarations alone. -/
theorem retains_attach (ns : Namespace) (owner child : Id) (kind : EntityKind) :
    ns.Retains (fun _ ↦ False) (ns.attach owner child kind) := by
  refine ⟨fun i e _ he ↦ ?_, fun q hq ↦ by rwa [attach, lookup_modify]⟩
  rw [attach, get?_modify]
  split
  · next hi =>
    subst hi
    rw [he]
    exact ⟨_, rfl, e.alike_mapChildren _⟩
  · exact ⟨e, he, .refl e⟩

end Building

end Namespace

namespace Draft

variable {project : Project} {directory : Directory} {before created : Namespace}
  {draft draft' : Draft}

/-- The file of a directory that was just read. -/
theorem transcribes_declareAll {ns : Namespace} {name : QualName} {body : Body} {id : Id}
    {file : String} {bytes : ByteArray} {statements : List Stmt}
    (hdirectory : directory ∈ project.directories) (hfile : .file file bytes ∈ directory.entries)
    (hparse : project.parse (directory.path ++ [file]) bytes = .ok statements) (htidy : ns.Tidy)
    (hbody : body.Container) (hkind : body.kind = .component)
    (hcreate : ns.create name body = some (id, created)) :
    (created.declareAll id (Declaration.ofStmts statements)).Transcribes project
      ⟨directory.path ++ [file], id⟩ := by
  have hentity := Namespace.hasEntity_create hcreate
  rw [hkind] at hentity
  exact ⟨directory, hdirectory, file, bytes, statements, rfl, hfile, hparse, name,
    Namespace.realizes_declareAll (htidy.create hcreate) hentity
      (fun s i ↦ Namespace.not_holds_create htidy.bounded hbody.shelf_eq hcreate) _⟩

/-- The marker of a directory is transcribed after it was entered. -/
theorem transcribes_markerStep (h : before.Tidy) (hdirectory : directory ∈ project.directories)
    (hcreate : before.create (.ofPath project.name directory.path none)
      (directory.listing project.filter).body = some (before.nextId, created))
    (hstep : MarkerStep project directory before.nextId created
      (directory.listing project.filter).marker draft) :
    ∀ f ∈ draft.sources, draft.ns.Transcribes project f := by
  generalize hmarker : (directory.listing project.filter).marker = marker at hstep
  cases hstep with
  | none => exact fun f hf ↦ absurd hf List.not_mem_nil
  | @some bytes statements hparse =>
    intro f hf
    cases List.mem_singleton.1 hf
    refine transcribes_declareAll hdirectory (Directory.mem_of_marker hmarker) hparse h
      (Listing.container_body _) ?_ hcreate
    rw [Listing.body, hmarker]
    rfl

/-- The files of a draft stay transcribed when a module is entered, and so is that module. -/
theorem transcribes_moduleStep {file : String} {bytes : ByteArray} (h : draft.ns.Tidy)
    (hdirectory : directory ∈ project.directories) (hmem : .file file bytes ∈ directory.entries)
    (hfiles : ∀ f ∈ draft.sources, draft.ns.Transcribes project f) {owner : Id}
    (hstep : ModuleStep project directory owner file bytes draft draft') :
    ∀ f ∈ draft'.sources, draft'.ns.Transcribes project f := by
  -- a new module with its declarations leaves the files so far alone
  have hentered : ∀ {id : Id} {created : Namespace} {name : QualName} (ds : List Declaration),
      draft.ns.create name (.component {}) = some (id, created) →
        draft.ns.Extended draft.ns.nextId (created.declareAll id ds) := by
    intro id created name ds hcreate
    have hentered : Entered project draft.ns.nextId draft.ns id _ _ :=
      entered_declareAll h (Nat.le_refl _) hcreate ds
    exact hentered.toExtended
  cases hstep with
  | skipped => exact hfiles
  | @kept id created _ statements hcreate hparse hdeclared =>
    have hextended := hentered (Declaration.ofStmts statements) hcreate
    have hretains := Namespace.retains_of_below h hextended.tidy.toConsistent hextended.below
    have hattach := Namespace.retains_attach
      (created.declareAll id (Declaration.ofStmts statements)) owner id .component
    subst hdeclared
    intro f hf
    rcases List.mem_append.1 hf with hf | hf
    · exact (hfiles f hf).retains (hretains.trans hattach)
    · cases List.mem_singleton.1 hf
      exact (transcribes_declareAll hdirectory hmem hparse h (.component false) rfl hcreate).retains
        hattach
  | @dropped id created _ statements hcreate hdeclared =>
    have hextended := hentered (Declaration.ofStmts statements) hcreate
    subst hdeclared
    have hid : id = draft.ns.nextId := (Namespace.create_eq_some_iff.1 hcreate).2.1
    have hpruned := hextended.prune (Nat.le_of_eq hid.symm) (hid ▸ h.bounded.kind?_nextId)
    exact fun f hf ↦ (hfiles f hf).retains
      (Namespace.retains_of_below h hpruned.tidy.toConsistent hpruned.below)

/-- The files of a draft stay transcribed when directories inside are attached. -/
theorem transcribes_addSubdirectories {owner : Id} (subdirectories : List String)
    (hfiles : ∀ f ∈ draft.sources, draft.ns.Transcribes project f) :
    ∀ f ∈ (subdirectories.foldl (addSubdirectory project directory owner) draft).sources,
      (subdirectories.foldl (addSubdirectory project directory owner) draft).ns.Transcribes
        project f := by
  induction subdirectories generalizing draft with
  | nil => exact hfiles
  | cons name rest ih =>
    refine ih fun f hf ↦ ?_
    unfold addSubdirectory at hf ⊢
    dsimp only at hf ⊢
    split at hf
    · exact hfiles f hf
    · exact (hfiles f hf).retains (Namespace.retains_attach _ _ _ _)

end Draft

namespace Project

variable {project : Project} {d : Directory} {before after ns : Namespace}

/-- A directory that gets an entity goes through drafts to a last one, in which its files are
recorded. -/
theorem exists_transcribes_of_buildDirectory {built : Namespace} {kept : Option Id}
    (h : before.Orderly []) (hd : d ∈ project.directories)
    (hbuilt : before.buildDirectory project d = .ok (built, kept)) :
    built = before ∨ ∃ draft : Draft, draft.ns.sources = before.sources ∧
      (∀ f ∈ draft.sources, draft.ns.Transcribes project f) ∧
        draft.finish before.nextId = (built, kept) := by
  rcases Namespace.buildDirectory_eq_ok hbuilt with ⟨-, rfl, -⟩ | ⟨created, marked, filled, hcreate,
    hmarked, hfilled, hfinish⟩
  · exact .inl rfl
  · have hall := foldlM_ok_induction (fun draft : Draft ↦ draft.InTurn project d before [] ∧
        ∀ f ∈ draft.sources, draft.ns.Transcribes project f)
      (fun draft file hfile draft' hdraft hok ↦ ⟨Draft.inTurn_moduleStep hdraft.1
          (Directory.ne_of_mem_modules hfile) (Directory.mem_of_mem_modules hfile)
          (Draft.moduleStep_of_addModule hok),
        Draft.transcribes_moduleStep hdraft.1.orderly.toTidy hd (Directory.mem_of_mem_modules hfile)
          hdraft.2 (Draft.moduleStep_of_addModule hok)⟩)
      ⟨Draft.inTurn_markerStep h hcreate hmarked,
        Draft.transcribes_markerStep h.toTidy hd hcreate hmarked⟩ hfilled
    have hlast := hall.1.addSubdirectories (d.listing project.filter).subdirectories
    exact .inr ⟨_, hlast.extended.sources, Draft.transcribes_addSubdirectories _ hall.2, hfinish⟩

/-- The files of a directory are recorded at its turn, and those from before stay so. -/
theorem Turn.transcribes (h : project.Turn d before after)
    (hbefore : ∀ f ∈ before.sources, before.Transcribes project f) :
    ∀ f ∈ after.sources, after.Transcribes project f := by
  have hcomplete := h.complete_before
  have hold : ∀ f ∈ before.sources, after.Transcribes project f := fun f hf ↦
    (hbefore f hf).retains (Namespace.retains_of_below hcomplete.toTidy
      (hcomplete.turn h).toConsistent (h.leaves hcomplete.toOrderly).below)
  have hd := h.mem_directories
  obtain ⟨_, _, -, -, hafter⟩ := h
  obtain ⟨⟨built, kept⟩, hbuilt, hrest⟩ := bind_eq_ok_iff.1 hafter
  obtain ⟨root, rfl⟩ : ∃ root, after = { built with root } := by
    cases hrest
    split
    · exact ⟨kept, rfl⟩
    · exact ⟨built.root, rfl⟩
  rcases exists_transcribes_of_buildDirectory hcomplete.toOrderly hd hbuilt with
    rfl | ⟨draft, hsources, hfiles, hfinish⟩
  · exact hold
  · unfold Draft.finish at hfinish
    split at hfinish
    · cases hfinish
      intro f hf
      rcases List.mem_append.1 hf with hf | hf
      · exact hold f (hsources ▸ hf)
      · exact (hfiles f hf).retains ⟨fun _ e _ he ↦ ⟨e, he, .refl e⟩, fun _ hq ↦ hq⟩
    · cases hfinish
      intro f hf
      have hf : f ∈ (draft.ns.prune before.nextId).sources := hf
      rw [Namespace.sources_prune, hsources] at hf
      exact hold f hf

/-- **What is built** holds what the first declarations of each name in its files say. -/
theorem transcribes_build (h : project.build = .ok ns) :
    ∀ f ∈ ns.sources, ns.Transcribes project f :=
  project.turn_induction (fun _ hf ↦ absurd hf List.not_mem_nil)
    (fun _ _ _ hturn hbefore ↦ hturn.transcribes hbefore) (List.append_nil _).symm h

end Project

end CodeAtlas
