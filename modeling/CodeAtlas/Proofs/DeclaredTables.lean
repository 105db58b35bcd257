import Mathlib.Data.Set.Function
import CodeAtlas.Proofs.Arrangement
import CodeAtlas.Proofs.FirstDeclarations
import CodeAtlas.Proofs.Footprints

/-!
# Declared names and what is declared

An entity keeps what it declares twice, as numbers on its shelves and as names in a table. The two
are written together, when the entity that is declared gets its number, and later steps of building
change neither (`BuildStep.tabled`).

## Tables and shelves

`Entity.Tabled` is the step invariant: what is on a shelf is in the table, under some name inside
the entity, and what is in the table is on a shelf. It says nothing yet of which name that is. It is
shown for one entity at a time, through the principle for such statements in
`CodeAtlas.Proofs.BuildSteps`.

## Mirrors

The table has qualified names as its values, and an entity on a shelf is named inside the one that
holds it, so the short name is the key (`Namespace.mirrors_of_build`). `Namespace.Mirrors` says this
as a bijection between the numbers on the shelves and the keys of the table, and adds that nothing
is left out: what is found by a name inside the owner is on a shelf, or is a module or a directory,
which may have the name of a declaration.

## After building

Passes change neither tables nor shelves, so the tables mirror what is declared in every namespace
that comes after what was built (`Later.mirrors`). `declared_tables_mirror` adds to this what the
entries are: those of the first declaration of each name in the file.
-/

namespace CodeAtlas

/-! ### Tables and shelves -/

/-- The table of the names that are declared in a body. -/
def Body.table (b : Body) : NameTable :=
  (b.scope?.map Scope.declared).getD ∅

namespace Body

variable {b body : Body} {kind : EntityKind}

@[simp]
theorem table_mapChildren (b : Body) (f : Containment → Containment) :
    (b.mapChildren f).table = b.table := by
  rw [table, scope?_mapChildren, table]

/-- Declaring something enters its name into the table. -/
theorem table_declaring (h : Declarable b.kind body) (short : String) (name : QualName) (id : Id) :
    (b.declaring short name id body.kind).table = b.table.insert short name := by
  cases b with
  | package | function => cases h
  | component => cases hkind : body.kind <;> rfl
  | cls => rfl

theorem params_skeleton (b : Body) :
    b.skeleton.function?.map Function.params = b.function?.map Function.params := by
  cases b <;> rfl

theorem Container.table_eq (h : b.Container) : b.table = ∅ := by
  cases h <;> rfl

theorem Declarable.table_eq (h : Declarable kind b) : b.table = ∅ := by
  cases h <;> rfl

/-- What a component declares are its classes and its functions. -/
@[simp]
theorem exists_mem_shelf_component {c : Component} {i : Id} :
    (∃ s, s.isDeclared = true ∧ i ∈ (component c).shelf s) ↔ i ∈ c.classes ∨ i ∈ c.functions := by
  constructor
  · rintro ⟨s, hs, hi⟩
    cases s with
    | packages | components => cases hs
    | classes => exact .inl hi
    | functions => exact .inr hi
    | methods => exact absurd hi Std.ExtTreeSet.not_mem_empty
  · rintro (hi | hi)
    · exact ⟨.classes, rfl, hi⟩
    · exact ⟨.functions, rfl, hi⟩

/-- What a class declares are its methods. -/
@[simp]
theorem exists_mem_shelf_cls {c : Class} {i : Id} :
    (∃ s, s.isDeclared = true ∧ i ∈ (cls c).shelf s) ↔ i ∈ c.methods := by
  constructor
  · rintro ⟨s, hs, hi⟩
    cases s with
    | packages | components => cases hs
    | classes | functions => exact absurd hi Std.ExtTreeSet.not_mem_empty
    | methods => exact hi
  · exact fun hi ↦ ⟨.methods, rfl, hi⟩

theorem Declarable.isDeclared (h : Declarable kind body) :
    (Shelf.declared kind body.kind).isDeclared = true := by
  cases h <;> rfl

end Body

/-- What is on the shelves of an entity is in its table, under some name inside the entity, and what
is in the table is on a shelf. -/
structure Entity.Tabled (ns : Namespace) (e : Entity) : Prop where
  filed : ∀ s i, s.isDeclared = true → i ∈ e.body.shelf s →
    ∃ (short : String) (body : Body), e.body.table[short]? = some (e.qualName.child short) ∧
      Body.Declarable e.kind body ∧ ns.HasEntity i body.kind (e.qualName.child short)
  held : ∀ (short : String) (q : QualName), e.body.table[short]? = some q →
    q = e.qualName.child short ∧ ∃ s i body, s.isDeclared = true ∧ i ∈ e.body.shelf s ∧
      Body.Declarable e.kind body ∧ ns.HasEntity i body.kind q

/-- Whether shelves and table agree is read off from these alone. -/
theorem Entity.Tabled.congr {ns : Namespace} {e e' : Entity} (h : e.Tabled ns)
    (halike : e.Alike e') (htable : e'.body.table = e.body.table) : e'.Tabled ns := by
  refine ⟨fun s i hs hi ↦ ?_, fun short q hq ↦ ?_⟩
  · rw [halike.shelf s hs] at hi
    rw [htable, halike.qualName, halike.kind]
    exact h.filed s i hs hi
  · rw [htable] at hq
    obtain ⟨hname, s, i, body, hs, hi, hrest⟩ := h.held short q hq
    rw [halike.qualName, halike.kind]
    exact ⟨hname, s, i, body, hs, halike.shelf s hs ▸ hi, hrest⟩

namespace Namespace

variable {project : Project} {built ns ns' : Namespace} {id o : Id} {e e' : Entity}

/-- In an entity that declares nothing, shelves and table agree. -/
theorem tabled_of_empty (hshelf : ∀ s, e.body.shelf s = ∅) (htable : e.body.table = ∅) :
    e.Tabled ns := by
  refine ⟨fun s i _ hi ↦ ?_, fun short q hq ↦ ?_⟩
  · rw [hshelf s] at hi
    exact absurd hi Std.ExtTreeSet.not_mem_empty
  · rw [htable, Std.ExtTreeMap.getElem?_empty] at hq
    cases hq

/-- What is declared stays while building goes on. -/
theorem BuildStep.tabled_mono (hstep : BuildStep project ns ns') (htidy : ns.Tidy)
    (h : e.Tabled ns) : e.Tabled ns' := by
  have hstays : ∀ {i body q}, Body.Declarable e.kind body → ns.HasEntity i body.kind q →
      ns'.HasEntity i body.kind q := fun hbody hi ↦
    (hstep.hasEntity htidy hi).resolve_right fun h ↦ hbody.not_container h.2.1
  refine ⟨fun s i hs hi ↦ ?_, fun short q hq ↦ ?_⟩
  · obtain ⟨short, body, hshort, hbody, hentity⟩ := h.filed s i hs hi
    exact ⟨short, body, hshort, hbody, hstays hbody hentity⟩
  · obtain ⟨hname, s, i, body, hs, hi, hbody, hentity⟩ := h.held short q hq
    exact ⟨hname, s, i, body, hs, hi, hbody, hstays hbody hentity⟩

/-- An entity that declares another has it on a shelf and in its table. -/
theorem tabled_declaring {body : Body} {short : String} (h : e.Tabled ns)
    (hbody : Body.Declarable e.kind body)
    (hid : ns.HasEntity id body.kind (e.qualName.child short)) :
    Entity.Tabled ns { e with
      body := e.body.declaring short (e.qualName.child short) id body.kind } := by
  have hkind : Entity.kind { e with
      body := e.body.declaring short (e.qualName.child short) id body.kind } = e.kind :=
    Body.kind_declaring _ _ _ _ _
  refine ⟨fun s i hs hi ↦ ?_, fun short' q hq ↦ ?_⟩
  · dsimp only at hi ⊢
    rw [Body.mem_shelf_declaring hbody] at hi
    rw [Body.table_declaring hbody, hkind]
    simp only [getElem?_insert_ite]
    rcases hi with hi | ⟨-, rfl⟩
    · obtain ⟨short', body', hshort', hbody', hentity⟩ := h.filed s i hs hi
      refine ⟨short', body', ?_, hbody', hentity⟩
      split
      · next heq => rw [heq]
      · exact hshort'
    · exact ⟨short, body, if_pos rfl, hbody, hid⟩
  · dsimp only at hq ⊢
    rw [Body.table_declaring hbody, getElem?_insert_ite] at hq
    rw [hkind]
    simp only [Body.mem_shelf_declaring hbody]
    split at hq
    · next heq =>
      cases hq
      exact ⟨by rw [heq], _, id, body, hbody.isDeclared, .inr ⟨rfl, rfl⟩, hbody, hid⟩
    · obtain ⟨hname, s, i, body', hs, hi, hbody', hentity⟩ := h.held short' q hq
      exact ⟨hname, s, i, body', hs, .inl hi, hbody', hentity⟩

/-- Each step of building keeps shelves and tables in step. -/
theorem BuildStep.tabled (hstep : BuildStep project ns ns') (htidy : ns.Tidy)
    (h : ∀ id e, ns.get? id = some e → e.Tabled ns) :
    ∀ id e, ns'.get? id = some e → e.Tabled ns' := by
  refine hstep.forall_entity (fun ns e ↦ e.Tabled ns) htidy (fun _ ↦ hstep.tabled_mono htidy) ?_
    (fun e id body short hbody hid he ↦ tabled_declaring he hbody hid)
    (fun e f he ↦ he.congr (e.alike_mapChildren f) (e.body.table_mapChildren f)) h
  rintro i q b (hb | ⟨kind, hb⟩)
  · exact tabled_of_empty hb.shelf_eq hb.table_eq
  · exact tabled_of_empty hb.shelf_eq hb.table_eq

/-- In what is built shelves and tables are in step. -/
theorem tabled_build (h : project.build = .ok ns) :
    ∀ id e, ns.get? id = some e → e.Tabled ns :=
  build_induction (fun ns ↦ ∀ id e, ns.get? id = some e → e.Tabled ns) h
    (fun id e he ↦ by simp [get?] at he) fun _ _ htidy _ hstep hold ↦ hstep.tabled htidy hold

/-! ### Mirrors -/

/-- A table has the short names of some entities as its keys, each once, and maps each to the name
inside an owner by which the entity is found. These are all the entities that are found by a name
inside the owner, apart from modules and directories. -/
structure Mirrors (ns : Namespace) (owner : QualName) (ids : Set Id) (table : NameTable) :
    Prop where
  bijOn : Set.BijOn ns.shortName ids {short | short ∈ table}
  entry : ∀ i ∈ ids, table[ns.shortName i]? = some (owner.child (ns.shortName i)) ∧
    ns.lookup (owner.child (ns.shortName i)) = some i
  complete : ∀ short i, '.' ∉ short.toList → ns.lookup (owner.child short) = some i →
    i ∈ ids ∨ ns.kind? i = some .package ∨ ns.kind? i = some .component

/-- What an entity declares goes by its short name inside of it. -/
theorem shortName_of_holds {s : Shelf} {i : Id} {kind : EntityKind} {short : String}
    (h : project.build = .ok ns) (hs : s.isDeclared = true) (he : ns.get? o = some e)
    (hi : i ∈ e.body.shelf s) (hentity : ns.HasEntity i kind (e.qualName.child short)) :
    ns.shortName i = short := by
  obtain ⟨e', he', parent, hparent, hlookup⟩ :=
    parent?_eq_some_iff.1 (parent?_of_isDeclared h hs ⟨e, he, hi⟩)
  obtain ⟨e'', he'', rfl⟩ := (complete_build h).exists_of_lookup parent o hlookup
  obtain rfl : e'' = e := Option.some.inj (he''.symm.trans he)
  rw [hentity.shortName]
  obtain ⟨_, hget, -, hname⟩ := hentity
  obtain rfl : e' = _ := Option.some.inj (he'.symm.trans hget)
  rw [hname] at hparent
  exact e''.qualName.child_injective (QualName.child_name_of_parent hparent)

/-- What is found by a name inside an entity is declared by it or is a module or a directory. -/
theorem exists_shelf_of_lookup {i : Id} {short : String} (h : project.build = .ok ns)
    (he : ns.get? o = some e) (hdot : '.' ∉ short.toList)
    (hlookup : ns.lookup (e.qualName.child short) = some i) :
    (∃ s, s.isDeclared = true ∧ i ∈ e.body.shelf s) ∨
      ns.kind? i = some .package ∨ ns.kind? i = some .component := by
  have hcomplete := complete_build h
  obtain ⟨e', he', hname⟩ := hcomplete.exists_of_lookup _ i hlookup
  have hkind? : ns.kind? i = some e'.kind := by rw [kind?, he']; rfl
  have howned := hcomplete.owned i e'.kind hkind?
  have hparent : ns.parent? i = some o := by
    refine parent?_eq_some_iff.2 ⟨e', he', e.qualName, ?_, hcomplete.lookup_of_get? o e he⟩
    rw [hname, QualName.parent_child hdot]
  cases hkind : e'.kind with
  | package => exact .inr (.inl (hkind ▸ hkind?))
  | component => exact .inr (.inr (hkind ▸ hkind?))
  | cls | function =>
    rw [hkind] at howned
    obtain ⟨owner, s, hs, howner, _, hget, hi⟩ := howned.exists_holds (by simp)
    obtain rfl : o = owner := Option.some.inj (hparent.symm.trans howner)
    obtain rfl : e = _ := Option.some.inj (he.symm.trans hget)
    exact .inl ⟨s, hs, hi⟩

/-- The table of an entity mirrors what the entity declares. -/
theorem mirrors_of_build (h : project.build = .ok ns) (he : ns.get? o = some e) :
    ns.Mirrors e.qualName {i | ∃ s, s.isDeclared = true ∧ i ∈ e.body.shelf s} e.body.table := by
  have htabled := tabled_build h o e he
  have hcomplete := complete_build h
  have hentry : ∀ i s, s.isDeclared = true → i ∈ e.body.shelf s →
      e.body.table[ns.shortName i]? = some (e.qualName.child (ns.shortName i)) ∧
        ns.lookup (e.qualName.child (ns.shortName i)) = some i := by
    intro i s hs hi
    obtain ⟨short, body, hshort, -, hentity⟩ := htabled.filed s i hs hi
    rw [shortName_of_holds h hs he hi hentity]
    exact ⟨hshort, hentity.lookup hcomplete.toConsistent⟩
  refine ⟨⟨?_, ?_, ?_⟩, ?_, ?_⟩
  · rintro i ⟨s, hs, hi⟩
    exact Std.ExtTreeMap.mem_iff_isSome_getElem?.2 (by rw [(hentry i s hs hi).1]; rfl)
  · rintro i ⟨s, hs, hi⟩ j ⟨s', hs', hj⟩ hij
    have hlookup := (hentry i s hs hi).2
    rw [hij, (hentry j s' hs' hj).2] at hlookup
    exact (Option.some.inj hlookup).symm
  · rintro short hshort
    obtain ⟨q, hq⟩ := Option.isSome_iff_exists.1 (Std.ExtTreeMap.mem_iff_isSome_getElem?.1 hshort)
    obtain ⟨rfl, s, i, body, hs, hi, -, hentity⟩ := htabled.held short q hq
    exact ⟨i, ⟨s, hs, hi⟩, shortName_of_holds h hs he hi hentity⟩
  · rintro i ⟨s, hs, hi⟩
    exact hentry i s hs hi
  · exact fun short i hdot hlookup ↦ exists_shelf_of_lookup h he hdot hlookup

/-! ### After building -/

/-- Short names are seen in outlines. -/
theorem SameOutline.shortName_eq (h : ns.SameOutline ns') : ns'.shortName = ns.shortName := by
  funext i
  have hname := congrArg (Option.map fun o : Outline ↦ o.qualName.name) (h.outline i)
  rw [Option.map_map, Option.map_map] at hname
  exact congrArg (Option.getD · "") hname

/-- What a table mirrors is seen in outlines. -/
theorem Mirrors.sameOutline {owner : QualName} {ids : Set Id} {table : NameTable}
    (h : ns.Mirrors owner ids table) (hns : ns.SameOutline ns') : ns'.Mirrors owner ids table := by
  refine ⟨?_, ?_, ?_⟩ <;> simp only [hns.shortName_eq, hns.lookup, hns.kind?]
  · exact h.bijOn
  · exact h.entry
  · exact h.complete

/-- The tables mirror what is declared after each pass. -/
theorem Later.mirrors (h : project.build = .ok built) (hlater : built.Later ns)
    (he : ns.get? o = some e) :
    ns.Mirrors e.qualName {i | ∃ s, s.isDeclared = true ∧ i ∈ e.body.shelf s} e.body.table := by
  obtain ⟨e', he', houtline⟩ := hlater.sameOutline.symm.exists_get? he
  have hmirrors := (mirrors_of_build h he').sameOutline hlater.sameOutline
  have hname : e'.qualName = e.qualName := congrArg Outline.qualName houtline
  have hshelf : e'.body.shelf = e.body.shelf := congrArg Outline.shelf houtline
  have htable : e'.body.table = e.body.table :=
    congrArg (fun o : Outline ↦ o.declared?.getD ∅) houtline
  rwa [hname, hshelf, htable] at hmirrors

/-- No pass changes parameters or what is declared. -/
theorem Later.retains (h : built.Later ns) : built.Retains (fun _ ↦ False) ns := by
  refine ⟨fun i e _ he ↦ ?_, fun q hq ↦ by rwa [h.sameOutline.lookup]⟩
  obtain ⟨e', he', houtline⟩ := h.sameOutline.exists_get? he
  refine ⟨e', he', congrArg Outline.qualName houtline, congrArg Outline.kind houtline,
    fun s _ ↦ congrArg (fun o : Outline ↦ o.shelf s) houtline, ?_⟩
  have hskeleton : ns.skeleton.get? i = built.skeleton.get? i := by rw [h.skeleton_eq]
  change (ns.mapBodies Body.skeleton).get? i = (built.mapBodies Body.skeleton).get? i at hskeleton
  rw [get?_mapBodies, get?_mapBodies, he, he'] at hskeleton
  have hbody : e'.body.skeleton = e.body.skeleton :=
    congrArg Entity.body (Option.some.inj hskeleton)
  rw [← Body.params_skeleton, hbody, Body.params_skeleton]

theorem exists_of_component? {c : Component} (h : ns.component? id = some c) :
    ∃ e, ns.get? id = some e ∧ e.body = .component c := by
  obtain ⟨e, he, hbody⟩ := Option.bind_eq_some_iff.1 h
  refine ⟨e, he, ?_⟩
  cases hc : e.body with
  | package | cls | function => rw [hc] at hbody; cases hbody
  | component => rw [hc] at hbody; cases hbody; rfl

/-- **Declared names and what is declared agree.** After building and any passes, the table of a
component mirrors its classes and functions, that of a class mirrors its methods, and functions
declare nothing. What a file declares is in its component as the first declaration of each name
says, and declarations that repeat a name could as well be left out. -/
theorem declared_tables_mirror (h : project.build = .ok built) (hlater : built.Later ns) :
    (∀ id e c, ns.get? id = some e → e.body = .component c →
      ns.Mirrors e.qualName {i | i ∈ c.classes ∨ i ∈ c.functions} c.scope.declared) ∧
    (∀ id e c, ns.get? id = some e → e.body = .cls c →
      ns.Mirrors e.qualName {i | i ∈ c.methods} c.scope.declared) ∧
    (∀ id e f, ns.get? id = some e → e.body = .function f → f.scope.declared = ∅) ∧
    (∀ m, ns.kind? m = some .component →
      ∃ f ∈ ns.sources, f.component = m ∧ ns.Transcribes project f) ∧
    ∀ (start : Namespace) (owner : Id) (declarations : List Declaration),
      start.declareAll owner declarations =
        start.declareAll owner (Declaration.firsts declarations) := by
  refine ⟨fun id e c he hc ↦ ?_, fun id e c he hc ↦ ?_, fun id e f he hf ↦ ?_, fun m hm ↦ ?_,
    fun start owner declarations ↦ (declareAll_firsts start owner declarations).symm⟩
  · have hmirrors := hlater.mirrors h he
    simp only [hc, Body.exists_mem_shelf_component] at hmirrors
    exact hmirrors
  · have hmirrors := hlater.mirrors h he
    simp only [hc, Body.exists_mem_shelf_cls] at hmirrors
    exact hmirrors
  · refine hlater.sameOutline.bareFunctions (sound_build h).bareFunctions id f ?_
    rw [he, Option.bind_some, hf]
    rfl
  · rw [hlater.sameOutline.kind?] at hm
    obtain ⟨f, hf, hcomponent⟩ := (complete_build h).filed m hm
    exact ⟨f, hlater.sameOutline.sources ▸ hf, hcomponent,
      (Project.transcribes_build h f hf).retains hlater.retains⟩

/-- A module that declares a name as a function and then as a class, a class with two methods of
one name, and another class of the same name. -/
def repeatingProject : Project where
  name := "p"
  location := "p"
  entries := [.file markerName ("def X(k):0\nclass X:\n def q(j):0\nclass W:\n def o(t):0\n" ++
    " def o(t,n):0\nclass W:\n def v(t):0\n").toUTF8]
  filter := []

/-- The name that is declared twice is that of a function, and the class has its first method only.
-/
theorem tables_of_repeatingProject :
    ∃ built c, repeatingProject.build = .ok built ∧ built.condense.component? 0 = some c ∧
      c.scope.declared.toList = [("W", ⟨"p.W"⟩), ("X", ⟨"p.X"⟩)] ∧
      [c.classes.toList, c.functions.toList] = [[2], [1]] ∧
      built.condense.Mirrors ⟨"p"⟩ {i | i ∈ c.classes ∨ i ∈ c.functions} c.scope.declared ∧
      built.condense.params? 1 = some [{ name := "k" }] ∧
      ∃ f ∈ built.condense.sources, f.component = 0 ∧
        built.condense.Transcribes repeatingProject f := by
  have hbuild : (repeatingProject.build.toOption.map fun ns ↦
      (decide ((ns.condense.get? 0).map Entity.qualName = some ⟨"p"⟩),
        decide (ns.condense.params? 1 = some [{ name := "k" }]),
        decide (((ns.condense.component? 0).map fun c ↦
          (c.scope.declared.toList, [c.classes.toList, c.functions.toList])) =
            some ([("W", ⟨"p.W"⟩), ("X", ⟨"p.X"⟩)], [[2], [1]])))) = some (true, true, true) := by
    decide +kernel
  obtain ⟨built, hbuilt, hread⟩ := exists_ok_of_toOption hbuild
  simp only [Prod.mk.injEq, decide_eq_true_eq] at hread
  obtain ⟨hname, hparams, hcomponent⟩ := hread
  obtain ⟨c, hc, hdeclared⟩ := Option.map_eq_some_iff.1 hcomponent
  obtain ⟨hdeclared, hheld⟩ := Prod.mk.inj hdeclared
  obtain ⟨e, he, hbody⟩ := exists_of_component? hc
  rw [he, Option.map_some, Option.some.injEq] at hname
  have hlater : built.Later built.condense := .condense .refl
  obtain ⟨hcomponents, -, -, hfiles, -⟩ := declared_tables_mirror hbuilt hlater
  have hkind : built.condense.kind? 0 = some .component := by
    rw [kind?, he, Option.map_some, Entity.kind, hbody]
    rfl
  exact ⟨built, c, hbuilt, hc, hdeclared, hheld, hname ▸ hcomponents 0 e c he hbody, hparams,
    hfiles 0 hkind⟩

end Namespace

end CodeAtlas
