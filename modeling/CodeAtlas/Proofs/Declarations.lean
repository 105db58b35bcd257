import CodeAtlas.Proofs.Orderly

/-!
# The first declaration of a name

A module may declare a name more than once, as a class and as a function. The first declaration
decides what the name stands for, since its entity is there when the others are entered
(`Making.declare`). The name may also belong to a module or a directory from before, and then no
declaration is entered.

## Of each name the first

Steps that take a name, and do nothing where it is taken, are the steps of the first of each name
(`foldl_firstsBy`). This is said of lists and states of any kind, since it is used for the
declarations of a module and for the methods of a class.

## Entering declarations

`Namespace.Making` is what holds while declarations are entered one after another: what the
component declares was declared by the first of them with the name, and all their names are taken.
So what has the name of a declaration, inside a component whose declarations were entered, is a
module or a directory or of the kind that the name was first declared as
(`declaresFirst_declareAll`). Entities are only added to from there on, and so this stays so
(`Widens.declaresFirst`).
-/

namespace CodeAtlas

/-! ### Of each name the first -/

section Firsts

variable {α σ : Type} (key : α → String)

/-- Of the elements of each name only the first. -/
def firstsBy : List α → List α
  | [] => []
  | a :: rest => a :: (firstsBy rest).filter (key · != key a)

/-- The first of each name are among the others, in the same order. -/
theorem firstsBy_sublist (l : List α) : (firstsBy key l).Sublist l := by
  induction l with
  | nil => exact .slnil
  | cons a rest ih => exact (List.filter_sublist.trans ih).cons_cons a

/-- The first of each name have different names. -/
theorem nodup_map_firstsBy (l : List α) : ((firstsBy key l).map key).Nodup := by
  induction l with
  | nil => exact .nil
  | cons a rest ih =>
    refine List.nodup_cons.2 ⟨fun hmem ↦ ?_, (List.filter_sublist.map key).nodup ih⟩
    obtain ⟨b, hb, hname⟩ := List.mem_map.1 hmem
    exact bne_iff_ne.1 (List.mem_filter.1 hb).2 hname

variable {key} {step : σ → α → σ} {taken : σ → String → Prop}

/-- Steps that take a name and do nothing where it is taken are the steps of the first of each
name. -/
theorem foldl_firstsBy (hidle : ∀ s a, taken s (key a) → step s a = s)
    (htaken : ∀ s a, taken (step s a) (key a)) (hkept : ∀ s a name, taken s name →
      taken (step s a) name) (l : List α) (s : σ) :
    (firstsBy key l).foldl step s = l.foldl step s := by
  have hskip : ∀ (name : String) (l : List α) (s : σ), taken s name →
      (l.filter (key · != name)).foldl step s = l.foldl step s := by
    intro name l
    induction l with
    | nil => exact fun _ _ ↦ rfl
    | cons a rest ih =>
      intro s hs
      rw [List.foldl_cons, ← ih _ (hkept s a name hs), List.filter_cons]
      split
      · rfl
      · next hname =>
        have hname : key a = name := by simpa using hname
        rw [hidle s a (hname ▸ hs)]
  induction l generalizing s with
  | nil => rfl
  | cons a rest ih =>
    rw [firstsBy, List.foldl_cons, List.foldl_cons, hskip _ _ _ (htaken s a), ih]

end Firsts

namespace Declaration

variable {declarations : List Declaration} {name : String} {d : Declaration}

/-- The first declaration of a name. -/
def first? (declarations : List Declaration) (name : String) : Option Declaration :=
  declarations.find? fun d ↦ d.name.text = name

/-- The first declaration of a name has this name. -/
theorem name_of_first? (h : first? declarations name = some d) : d.name.text = name :=
  of_decide_eq_true (List.find?_some h :)

theorem mem_of_first? (h : first? declarations name = some d) : d ∈ declarations :=
  List.mem_of_find?_eq_some h

/-- Further declarations do not change which one is the first of a name. -/
theorem first?_append_of_eq_some (h : first? declarations name = some d)
    (further : List Declaration) : first? (declarations ++ further) name = some d := by
  have h : declarations.find? (fun d ↦ d.name.text = name) = some d := h
  rw [first?, List.find?_append, h]
  rfl

/-- A declaration whose name no earlier one has is the first of its name. -/
theorem first?_append_self (h : ∀ d' ∈ declarations, d'.name.text ≠ d.name.text) :
    first? (declarations ++ [d]) d.name.text = some d := by
  have hnone : declarations.find? (fun d' ↦ d'.name.text = d.name.text) = none :=
    List.find?_eq_none.2 fun d' hd' ↦ by simpa using h d' hd'
  rw [first?, List.find?_append, hnone]
  simp

end Declaration

namespace Namespace

variable {ns ns' created : Namespace} {owner id : Id} {name : QualName}
  {declarations : List Declaration} {unfinished : List Id}

/-! ### While declarations are entered -/

/-- What holds of a component whose declarations are entered, of which `declarations` are those so
far: what it declares was declared by the first of them with the name, and all their names are
taken. -/
structure Making (owner : Id) (name : QualName) (declarations : List Declaration) (ns : Namespace) :
    Prop where
  tidy : ns.Tidy
  entity : ns.HasEntity owner .component name
  made : ∀ s i, s = .classes ∨ s = .functions → ns.Holds owner s i →
    ∃ d, Declaration.first? declarations d.name.text = some d ∧
      ns.HasEntity i d.body.kind (name.child d.name.text)
  taken : ∀ d ∈ declarations, (ns.lookup (name.child d.name.text)).isSome

namespace Making

/-- A declaration whose name is taken changes nothing. -/
theorem skip (h : ns.Making owner name declarations) {d : Declaration}
    (htaken : (ns.lookup (name.child d.name.text)).isSome) :
    ns.Making owner name (declarations ++ [d]) := by
  refine ⟨h.tidy, h.entity, fun s i hs hi ↦ ?_, fun d' hd' ↦ ?_⟩
  · obtain ⟨d', hfirst, hd'⟩ := h.made s i hs hi
    exact ⟨d', Declaration.first?_append_of_eq_some hfirst [d], hd'⟩
  · rcases List.mem_append.1 hd' with hd' | hd'
    · exact h.taken d' hd'
    · rwa [List.mem_singleton.1 hd']

/-- A declaration whose name is free is the first one of its name. -/
theorem enter (h : ns.Making owner name declarations) {d : Declaration}
    (hcreate : ns.create (name.child d.name.text) d.body = some (id, created))
    (hrest : (created.modify owner (Body.declaring d.name.text (name.child d.name.text) id
      d.body.kind)).Declares id ns') : ns'.Making owner name (declarations ++ [d]) := by
  obtain ⟨e, he, hkind, rfl⟩ := h.entity
  have hbody : Body.Declarable e.kind d.body := hkind ▸ d.declarable_body
  have hstep := (DeclareStep.intro (Nat.le_refl owner) he hbody hcreate).extended h.tidy
  have hextended := hrest.extended hstep.tidy
  have hwidens := hstep.widens.trans hextended.widens
  have hlt : owner < id := by
    rw [(create_eq_some_iff.1 hcreate).2.1]
    exact h.tidy.bounded owner (by rw [kind?, he]; rfl)
  have hid : ns'.HasEntity id d.body.kind (e.qualName.child d.name.text) :=
    hextended.widens.hasEntity ((hasEntity_create hcreate).modify (Body.kind_declaring _ _ _ _))
  have hfree := (create_eq_some_iff.1 hcreate).1
  have hnew : Declaration.first? (declarations ++ [d]) d.name.text = some d := by
    refine Declaration.first?_append_self fun d' hd' hname ↦ ?_
    have htaken := h.taken d' hd'
    rw [hname, hfree] at htaken
    cases htaken
  refine ⟨hextended.tidy, hwidens.hasEntity h.entity, fun s i hs hi ↦ ?_, fun d' hd' ↦ ?_⟩
  · -- what the new entity declares itself is not held by the component
    rw [holds_congr (hextended.below owner hlt),
      holds_declaring h.tidy.bounded he hbody hcreate] at hi
    rcases hi with hi | ⟨-, -, rfl⟩
    · obtain ⟨d', hfirst, hd'⟩ := h.made s i hs hi
      exact ⟨d', Declaration.first?_append_of_eq_some hfirst [d], hwidens.hasEntity hd'⟩
    · exact ⟨d, hnew, hid⟩
  · rcases List.mem_append.1 hd' with hd' | hd'
    · obtain ⟨i, hi⟩ := Option.isSome_iff_exists.1 (h.taken d' hd')
      rw [hwidens.lookup h.tidy.toConsistent hextended.tidy.toConsistent hi]
      rfl
    · rw [List.mem_singleton.1 hd', hid.lookup hextended.tidy.toConsistent]
      rfl

/-- One more declaration is entered, or its name is taken. -/
theorem declare (h : ns.Making owner name declarations) (d : Declaration) :
    (ns.declare owner name d).Making owner name (declarations ++ [d]) := by
  rcases declare_cases d h.tidy h.entity with ⟨htaken, hsame⟩ | ⟨id, created, hcreate, hrest⟩
  · rw [hsame]
    exact h.skip htaken
  · exact h.enter hcreate hrest

theorem foldl (h : ns.Making owner name declarations) (further : List Declaration) :
    (further.foldl (·.declare owner name ·) ns).Making owner name (declarations ++ further) := by
  induction further generalizing ns declarations with
  | nil =>
    rw [List.append_nil]
    exact h
  | cons d rest ih =>
    have hrest := ih (h.declare d)
    rwa [List.append_assoc, List.singleton_append] at hrest

end Making

/-! ### When all declarations are entered -/

/-- What a component declares is what was declared first: under the name of a declaration there is a
module or a directory, or an entity of the kind that the name was first declared as. -/
def DeclaresFirst (ns : Namespace) (component : Id) (declarations : List Declaration) : Prop :=
  ∃ name, ns.HasEntity component .component name ∧
    ∀ short d, Declaration.first? declarations short = some d →
      ∃ i kind, ns.HasEntity i kind (name.child short) ∧
        (kind = d.body.kind ∨ kind = .package ∨ kind = .component)

/-- What was declared first stays so when entities are added. -/
theorem Widens.declaresFirst (h : ns.Widens ns') (hd : ns.DeclaresFirst owner declarations) :
    ns'.DeclaresFirst owner declarations := by
  obtain ⟨name, howner, hfirst⟩ := hd
  refine ⟨name, h.hasEntity howner, fun short d hd ↦ ?_⟩
  obtain ⟨i, kind, hi, hkind⟩ := hfirst short d hd
  exact ⟨i, kind, h.hasEntity hi, hkind⟩

/-- A file of a directory was read, and what it declares first is what its component declares. -/
def Reads (project : Project) (directory : Directory) (ns : Namespace) (f : SourceFile) : Prop :=
  ∃ file bytes statements, f.path = directory.path ++ [file] ∧
    .file file bytes ∈ directory.entries ∧ project.parse f.path bytes = .ok statements ∧
      ns.DeclaresFirst f.component (Declaration.ofStmts statements)

/-- A file stays the one that its component was read from when entities are added. -/
theorem Widens.reads (h : ns.Widens ns') {project : Project} {directory : Directory}
    {f : SourceFile} (hf : ns.Reads project directory f) : ns'.Reads project directory f := by
  obtain ⟨file, bytes, statements, hpath, hfile, hparse, hfirst⟩ := hf
  exact ⟨file, bytes, statements, hpath, hfile, hparse, h.declaresFirst hfirst⟩

/-- A class or a function inside a component by name is among those that the component declares. -/
theorem Orderly.holds_of_child (h : ns.Orderly unfinished)
    (howner : ns.HasEntity owner .component name) (short : Ident) {i : Id} {kind : EntityKind}
    (hi : ns.HasEntity i kind (name.child short.text)) (hkind : kind = .cls ∨ kind = .function) :
    ∃ s, (s = .classes ∨ s = .functions) ∧ ns.Holds owner s i := by
  have hparent : ns.parent? i = some owner := by
    obtain ⟨e, he, -, hname⟩ := hi
    refine parent?_eq_some_iff.2 ⟨e, he, name, ?_, howner.lookup h.toConsistent⟩
    rw [hname]
    exact QualName.parent_child short.dotFree
  have howned := h.owned i kind hi.kind?
  rcases hkind with rfl | rfl
  · obtain ⟨o, ho, hholds⟩ := howned
    cases hparent.symm.trans ho
    exact ⟨_, .inl rfl, hholds⟩
  · obtain ⟨o, ho, hholds | hholds⟩ := howned
    · cases hparent.symm.trans ho
      exact ⟨_, .inr rfl, hholds⟩
    · cases hparent.symm.trans ho
      have hcls := hholds.kind?_of_methods
      rw [howner.kind?] at hcls
      cases hcls

/-- **The first declaration decides.** Entering declarations below a component that has declared
nothing yet. -/
theorem declaresFirst_declareAll (h : ns.Orderly unfinished)
    (howner : ns.HasEntity owner .component name) (hempty : ∀ s i, ¬ ns.Holds owner s i)
    (declarations : List Declaration) :
    (ns.declareAll owner declarations).DeclaresFirst owner declarations := by
  have hdeclares := declares_declareAll h.toTidy (Nat.le_refl owner) howner declarations
  have horderly := h.declares hdeclares
  have hmaking : (ns.declareAll owner declarations).Making owner name declarations := by
    have hstart : ns.Making owner name [] := ⟨h.toTidy, howner,
      fun s i _ hi ↦ absurd hi (hempty s i), fun d hd ↦ absurd hd List.not_mem_nil⟩
    obtain ⟨e, he, -, hname⟩ := howner
    rw [declareAll, he, ← hname]
    rw [← hname] at hstart
    exact hstart.foldl declarations
  refine ⟨name, hmaking.entity, fun short d hd ↦ ?_⟩
  obtain rfl := Declaration.name_of_first? hd
  obtain ⟨i, hi⟩ := Option.isSome_iff_exists.1 (hmaking.taken d (Declaration.mem_of_first? hd))
  obtain ⟨e, he, hname⟩ := horderly.exists_of_lookup _ i hi
  have hentity : HasEntity _ i e.kind (name.child d.name.text) := ⟨e, he, rfl, hname⟩
  refine ⟨i, e.kind, hentity, ?_⟩
  -- a class or a function with the name was made by the first declaration with the name
  have hmade : e.kind = .cls ∨ e.kind = .function → e.kind = d.body.kind := by
    intro hkind
    obtain ⟨s, hs, hholds⟩ := horderly.holds_of_child hmaking.entity d.name hentity hkind
    obtain ⟨d', hfirst, e', he', hkind', hname'⟩ := hmaking.made s i hs hholds
    rw [he] at he'
    cases he'
    rw [name.child_injective (hname'.symm.trans hname), hd] at hfirst
    cases hfirst
    exact hkind'
  cases hkind : e.kind with
  | package => exact .inr (.inl rfl)
  | component => exact .inr (.inr rfl)
  | cls => exact .inl (hkind ▸ hmade (.inl hkind))
  | function => exact .inl (hkind ▸ hmade (.inr hkind))

end Namespace

end CodeAtlas
