import Mathlib.Data.List.Perm.Subperm
import CodeAtlas.Proofs.Arrangement
import CodeAtlas.Proofs.DocumentRecords
import CodeAtlas.Proofs.RelationTypes

/-!
# The document of the tree

The tree of a report has a record for each package and component, and in these the records of
classes, functions and methods. Where entities form a tree (`Namespace.Arranged`), the document has
the number of each entity in it once.

## Numbers in documents

`Json.numbersAt` collects the numbers under a key in all the objects of a value, so that a document
can be asked which entities it has without knowing how it is laid out. For each kind of record the
numbers in it are those of the entity itself and those in the records inside it.

## Records

The numbers in the records below an entity are those of the entities in it, each once
(`Namespace.Spans`). For records with others in them this follows from the same for these, since
what an entity has on its shelves, for their kinds, are the entities that it is around
(`Namespace.Arranged.parent?_eq_some_iff`), and those on different shelves have nothing in common
(`Namespace.Spans.append`). Classes and functions that are attached to a directory have no record
there, but one where they are declared.

## Levels

The bound on the levels of the tree is never met: with each level there is one entity more around
the next, and there are no more entities around one than there are entities
(`Consistent.length_ancestors_le_size`).

So the document of the tree has the number of each entity in it once, and those at the ends of
relations are among them (`tree_document_complete`).
-/

namespace CodeAtlas

/-! ### Numbers in documents -/

namespace Json

mutual

/-- The numbers under a key, in all the objects of a value. -/
def numbersAt (key : String) : Json → List Nat
  | null | number _ | text _ => []
  | array items => numbersAtItems key items
  | object members => numbersAtMembers key members

/-- The numbers under a key in the elements of an array. -/
def numbersAtItems (key : String) : List Json → List Nat
  | [] => []
  | item :: rest => numbersAt key item ++ numbersAtItems key rest

/-- The numbers under a key in the members of an object. -/
def numbersAtMembers (key : String) : List (String × Json) → List Nat
  | [] => []
  | (name, value) :: rest =>
    (if name = key then value.number?.toList else []) ++ numbersAt key value ++
      numbersAtMembers key rest

end

variable {key : String}

@[simp]
theorem numbersAt_null : null.numbersAt key = [] := by
  rw [numbersAt]

@[simp]
theorem numbersAt_number (n : Nat) : (number n).numbersAt key = [] := by
  rw [numbersAt]

@[simp]
theorem numbersAt_text (s : String) : (text s).numbersAt key = [] := by
  rw [numbersAt]

@[simp]
theorem numbersAt_array (items : List Json) :
    (array items).numbersAt key = items.flatMap (numbersAt key) := by
  rw [numbersAt]
  induction items with
  | nil => rw [numbersAtItems, List.flatMap_nil]
  | cons item rest ih => rw [numbersAtItems, ih, List.flatMap_cons]

@[simp]
theorem numbersAt_object (members : List (String × Json)) :
    (object members).numbersAt key = numbersAtMembers key members := by
  rw [numbersAt]

@[simp]
theorem numbersAtMembers_nil : numbersAtMembers key [] = [] := by
  rw [numbersAtMembers]

@[simp]
theorem numbersAtMembers_cons (name : String) (value : Json) (rest : List (String × Json)) :
    numbersAtMembers key ((name, value) :: rest) =
      (if name = key then value.number?.toList else []) ++ value.numbersAt key ++
        numbersAtMembers key rest := by
  rw [numbersAtMembers]

@[simp]
theorem numbersAtMembers_append (members members' : List (String × Json)) :
    numbersAtMembers key (members ++ members') =
      numbersAtMembers key members ++ numbersAtMembers key members' := by
  induction members with
  | nil => simp
  | cons m rest ih =>
    obtain ⟨name, value⟩ := m
    simp [ih]

/-- Texts are no numbers. -/
theorem numbersAtMembers_eq_nil {members : List (String × Json)}
    (h : ∀ m ∈ members, ∃ s, m.2 = text s) : numbersAtMembers key members = [] := by
  induction members with
  | nil => exact numbersAtMembers_nil
  | cons m rest ih =>
    obtain ⟨name, value⟩ := m
    obtain ⟨s, rfl⟩ := h (name, value) List.mem_cons_self
    simp [number?, ih fun m hm ↦ h m (List.mem_cons_of_mem _ hm)]

end Json

section Documents

open Json

variable {key : String}

/-- A name may be any key, but what stands under it is text. -/
@[simp]
theorem numbersAt_nameTable (t : NameTable) : (NameTable.toJson t).numbersAt key = [] := by
  rw [NameTable.toJson, numbersAt_object]
  refine numbersAtMembers_eq_nil fun m hm ↦ ?_
  obtain ⟨entry, -, rfl⟩ := List.mem_map.1 hm
  exact ⟨_, rfl⟩

@[simp]
theorem numbersAt_variable (v : Variable) : v.toJson.numbersAt key = [] := by
  simp [Variable.toJson, number?]

/-- The numbers in the record of a relation are those of its ends. -/
theorem numbersAt_relation (r : Relation) :
    r.toJson.numbersAt "source" = [r.source] ∧ r.toJson.numbersAt "target" = [r.target] ∧
      r.toJson.numbersAt "id" = [] := by
  cases hs : r.kind.stereotype? with
  | none => simp [Relation.toJson, number?, hs]
  | some s => simp [Relation.toJson, number?, hs]

@[simp]
theorem numbersAt_source_relationsJson (relations : List Relation) :
    (relationsJson relations).numbersAt "source" = relations.map (·.source) := by
  rw [relationsJson, numbersAt_array, List.flatMap_map, List.map_eq_flatMap]
  simp [numbersAt_relation]

@[simp]
theorem numbersAt_target_relationsJson (relations : List Relation) :
    (relationsJson relations).numbersAt "target" = relations.map (·.target) := by
  rw [relationsJson, numbersAt_array, List.flatMap_map, List.map_eq_flatMap]
  simp [numbersAt_relation]

@[simp]
theorem numbersAt_id_relationsJson (relations : List Relation) :
    (relationsJson relations).numbersAt "id" = [] := by
  simp [relationsJson, List.flatMap_map, numbersAt_relation]

/-- A record begins with one number, which is that of its entity. -/
@[simp]
theorem numbersAtMembers_recordHead (id : Id) (names : RecordNames) :
    numbersAtMembers "id" (recordHead id names) = [id] := by
  simp [recordHead, number?]

/-- The record of a function has its own number. -/
theorem FunctionRecord.numbersAt_toJson (f : FunctionRecord) :
    f.toJson.numbersAt "id" = [f.id] := by
  simp [toJson]

/-- The record of a class has its own number and those of its methods. -/
theorem ClassRecord.numbersAt_toJson (c : ClassRecord) :
    c.toJson.numbersAt "id" = c.id :: c.methods.flatMap (·.toJson.numbersAt "id") := by
  simp [toJson, List.flatMap_map]

theorem Node.listToJson_eq_map (nodes : List Node) : Node.listToJson nodes = nodes.map toJson := by
  induction nodes with
  | nil => rw [listToJson, List.map_nil]
  | cons node rest ih => rw [listToJson, ih, List.map_cons]

/-- The numbers in the records of what is declared in a component. -/
def ComponentRecord.ids (c : ComponentRecord) : List Id :=
  c.classes.flatMap (·.toJson.numbersAt "id") ++ c.functions.flatMap (·.toJson.numbersAt "id")

/-- The record of a package or component has its own number and those of what is in it. -/
theorem Node.numbersAt_toJson (id : Id) (names : RecordNames) (relations : List Relation)
    (component : Option ComponentRecord) (packages components : List Node) :
    (Node.mk id names relations component packages components).toJson.numbersAt "id" =
      id :: (packages.flatMap (·.toJson.numbersAt "id") ++
        components.flatMap (·.toJson.numbersAt "id") ++
          (component.map ComponentRecord.ids).getD []) := by
  cases component with
  | none => simp [toJson, listToJson_eq_map, List.flatMap_map]
  | some c =>
    cases hexports : c.exports with
    | none =>
      simp [toJson, listToJson_eq_map, List.flatMap_map, ComponentRecord.names,
        ComponentRecord.contents, ComponentRecord.ids, hexports]
    | some names =>
      simp [toJson, listToJson_eq_map, List.flatMap_map, ComponentRecord.names,
        ComponentRecord.contents, ComponentRecord.ids, hexports]

end Documents

/-! ### Entities below others -/

namespace Namespace

variable {ns : Namespace} {inner inner' : Id → Prop} {ids ids' : List Id} {a o i : Id} {e : Entity}
  {s s' : Shelf}

/-- A list of the entities that are in some given ones, or are these themselves, each once. -/
structure Spans (ns : Namespace) (inner : Id → Prop) (ids : List Id) : Prop where
  nodup : ids.Nodup
  mem_iff : ∀ i, i ∈ ids ↔ (ns.get? i).isSome ∧ ∃ c, inner c ∧ c ∈ ns.ancestors i

/-- A list of what is in some entities is read off these. -/
theorem Spans.congr (h : ns.Spans inner ids) (hiff : ∀ c, inner' c ↔ inner c) :
    ns.Spans inner' ids := by
  rwa [show inner' = inner from funext fun c ↦ propext (hiff c)]

theorem spans_nil (h : ∀ c, ¬ inner c) : ns.Spans inner [] where
  nodup := List.nodup_nil
  mem_iff _ := iff_of_false List.not_mem_nil fun ⟨_, c, hc, _⟩ ↦ h c hc

/-- Different entities with the same parent have nothing in common. -/
theorem Spans.append (h : ns.Spans inner ids) (h' : ns.Spans inner' ids') (hns : ns.Consistent)
    (hparent : ∀ c, inner c → ns.parent? c = some a)
    (hparent' : ∀ c, inner' c → ns.parent? c = some a)
    (hne : ∀ c, inner c → ¬ inner' c) : ns.Spans (fun c ↦ inner c ∨ inner' c) (ids ++ ids') := by
  refine ⟨List.nodup_append.2 ⟨h.nodup, h'.nodup, ?_⟩, fun i ↦ ?_⟩
  · rintro i hi _ hi' rfl
    obtain ⟨-, c, hc, hmem⟩ := (h.mem_iff i).1 hi
    obtain ⟨-, c', hc', hmem'⟩ := (h'.mem_iff i).1 hi'
    have hdepth := hns.depth_parent? (hparent c hc)
    have hdepth' := hns.depth_parent? (hparent' c' hc')
    obtain rfl := hns.eq_of_depth_eq hmem hmem' (by omega)
    exact hne c hc hc'
  · rw [List.mem_append, h.mem_iff, h'.mem_iff, ← and_or_left, ← exists_or]
    simp only [or_and_right]

/-- An entity and what is in its children are what is in the entity. -/
theorem Spans.cons (h : ns.Spans (ns.parent? · = some a) ids) (hns : ns.Consistent)
    (ha : (ns.get? a).isSome) : ns.Spans (· = a) (a :: ids) := by
  refine ⟨List.nodup_cons.2 ⟨fun hmem ↦ ?_, h.nodup⟩, fun i ↦ ?_⟩
  · obtain ⟨-, c, hc, hmem⟩ := (h.mem_iff a).1 hmem
    have hdepth := hns.depth_parent? hc
    have hle := hns.depth_le_of_mem hmem
    omega
  · rw [List.mem_cons, h.mem_iff]
    constructor
    · rintro (rfl | ⟨hlive, c, hc, hmem⟩)
      · exact ⟨ha, i, rfl, hns.mem_ancestors_iff.2 (.inl rfl)⟩
      · have hmem' := hns.mem_ancestors_iff.2 (.inr ⟨a, hc, hns.mem_ancestors_iff.2 (.inl rfl)⟩)
        exact ⟨hlive, a, rfl, hns.mem_ancestors_trans hmem' hmem⟩
    · rintro ⟨hlive, _, rfl, hmem⟩
      rcases hns.exists_child_of_mem hmem with rfl | ⟨c, hc, hparent⟩
      · exact .inl rfl
      · exact .inr ⟨hlive, c, hparent, hc⟩

/-! ### Records -/

/-- An entity has another on a shelf, and it is of the kind that is recorded there. -/
def Records (ns : Namespace) (o : Id) (s : Shelf) (i : Id) : Prop :=
  ns.Holds o s i ∧ ns.kind? i = some s.recorded

/-- Different shelves have different entities that belong there. -/
theorem Records.shelf_eq (h : ns.Records o s i) (h' : ns.Records o s' i) : s = s' := by
  have hkind : s.recorded = s'.recorded := Option.some.inj (h.2.symm.trans h'.2)
  -- functions are those of components and methods those of classes
  have hnone : ns.Holds o .functions i → ns.Holds o .methods i → False := fun hf hm ↦ by
    cases (hf.kind?_of_declared (.inr rfl)).symm.trans hm.kind?_of_methods
  rcases Shelf.eq_or_of_recorded_eq hkind with heq | ⟨rfl, rfl⟩ | ⟨rfl, rfl⟩
  · exact heq
  · exact (hnone h.1 h'.1).elim
  · exact (hnone h'.1 h.1).elim

/-- The records of those entities of a list that are of some kind. -/
theorem spans_records {R : Type} {record? : Entity → Option R} {numbers : R → List Id}
    {kind : EntityKind} (hns : ns.Consistent) {l : List Id} (hnodup : l.Nodup)
    (hparent : ∀ i ∈ l, ns.parent? i = some a)
    (hrecord : ∀ i ∈ l, ∀ e, ns.get? i = some e → e.kind = kind →
      ∃ r, record? e = some r ∧ ns.Spans (· = i) (numbers r))
    (hother : ∀ i ∈ l, ∀ e, ns.get? i = some e → e.kind ≠ kind → record? e = none) :
    ns.Spans (fun c ↦ c ∈ l ∧ ns.kind? c = some kind)
      (((l.filterMap ns.get?).filterMap record?).flatMap numbers) := by
  induction l with
  | nil => exact spans_nil fun c hc ↦ List.not_mem_nil hc.1
  | cons i rest ih =>
    obtain ⟨hi, hnodup⟩ := List.nodup_cons.1 hnodup
    have hrest := ih hnodup (fun j hj ↦ hparent j (List.mem_cons_of_mem _ hj))
      (fun j hj ↦ hrecord j (List.mem_cons_of_mem _ hj))
      (fun j hj ↦ hother j (List.mem_cons_of_mem _ hj))
    -- without a record, the entity is of another kind
    have hskip : ns.kind? i ≠ some kind → ∀ c, (c ∈ i :: rest ∧ ns.kind? c = some kind) ↔
        c ∈ rest ∧ ns.kind? c = some kind := by
      intro hne c
      refine and_congr_left fun hkind ↦ ?_
      rw [List.mem_cons]
      exact or_iff_right fun heq ↦ hne (heq ▸ hkind)
    cases he : ns.get? i with
    | none =>
      rw [List.filterMap_cons_none he]
      exact hrest.congr (hskip (by rw [kind?, he]; exact Option.some_ne_none _ ∘ Eq.symm))
    | some e =>
      rw [List.filterMap_cons_some he]
      have hkind : ns.kind? i = some e.kind := by rw [kind?, he, Option.map_some]
      by_cases hmatch : e.kind = kind
      · obtain ⟨r, hr, hspans⟩ := hrecord i List.mem_cons_self e he hmatch
        rw [List.filterMap_cons_some hr, List.flatMap_cons]
        refine (hspans.append hrest hns (a := a) ?_ ?_ ?_).congr fun c ↦ ?_
        · rintro _ rfl
          exact hparent _ List.mem_cons_self
        · exact fun c hc ↦ hparent c (List.mem_cons_of_mem _ hc.1)
        · rintro _ rfl hc
          exact hi hc.1
        · rw [List.mem_cons, or_and_right]
          refine or_congr_left (and_iff_left_of_imp ?_)
          rintro rfl
          rw [hkind, hmatch]
      · rw [List.filterMap_cons_none (hother i List.mem_cons_self e he hmatch)]
        refine hrest.congr (hskip ?_)
        rw [hkind]
        exact fun heq ↦ hmatch (Option.some.inj heq)

namespace Arranged

/-- The children of an entity are those on its shelves, for their kinds. -/
theorem parent?_eq_some_iff (h : ns.Arranged) : ns.parent? i = some o ↔ ∃ s, ns.Records o s i := by
  constructor
  · intro hparent
    obtain ⟨kind, hkind⟩ := Option.isSome_iff_exists.1 (isSome_kind?_of_parent? hparent)
    rcases h.inside i kind hkind with hroot | ⟨o', s, hhouses, rfl⟩
    · rw [(h.top i hroot).1] at hparent
      cases hparent
    · cases hhouses.parent.symm.trans hparent
      exact ⟨s, hhouses.holds, hkind⟩
  · rintro ⟨s, hholds, -⟩
    exact (h.houses o s i hholds).parent

/-- The records of what is on a shelf. -/
theorem spans_shelf {R : Type} {record? : Entity → Option R} {numbers : R → List Id}
    (h : ns.Arranged) (he : ns.get? o = some e)
    (hrecord : ∀ i e', ns.Houses o s i → ns.get? i = some e' → e'.kind = s.recorded →
      ∃ r, record? e' = some r ∧ ns.Spans (· = i) (numbers r))
    (hother : ∀ i e', ns.Houses o s i → ns.get? i = some e' → e'.kind ≠ s.recorded →
      record? e' = none) :
    ns.Spans (ns.Records o s)
      ((((e.body.shelf s).toList.filterMap ns.get?).filterMap record?).flatMap numbers) := by
  have hhouses : ∀ i ∈ (e.body.shelf s).toList, ns.Houses o s i := fun i hi ↦
    h.houses o s i ⟨e, he, Std.ExtTreeSet.mem_toList.1 hi⟩
  have hnodup : (e.body.shelf s).toList.Nodup :=
    Std.ExtTreeSet.distinct_toList.imp fun hne heq ↦ hne (Std.compare_eq_iff_eq.2 heq)
  refine (spans_records h.toConsistent hnodup (fun i hi ↦ (hhouses i hi).parent)
    (fun i hi e' ↦ hrecord i e' (hhouses i hi))
    fun i hi e' ↦ hother i e' (hhouses i hi)).congr fun c ↦ and_congr_left fun _ ↦ ?_
  rw [Std.ExtTreeSet.mem_toList]
  exact ⟨fun ⟨e', he', hc⟩ ↦ by cases he.symm.trans he'; exact hc, fun hc ↦ ⟨e, he, hc⟩⟩

/-- The record of a function has the number of the function, which has nothing in it. -/
theorem spans_function (h : ns.Arranged) (he : ns.get? o = some e) (hkind : e.kind = .function) :
    ∃ r, Report.functionRecord? e = some r ∧ ns.Spans (· = o) (r.toJson.numbersAt "id") := by
  obtain rfl := h.id_eq o e he
  have hlive := Option.isSome_iff_exists.2 ⟨e, he⟩
  obtain ⟨id, name, body⟩ := e
  cases body with
  | package | component | cls => cases hkind
  | function f =>
    refine ⟨_, rfl, ?_⟩
    rw [FunctionRecord.numbersAt_toJson]
    refine Spans.cons (spans_nil fun c hc ↦ ?_) h.toConsistent hlive
    obtain ⟨s, ⟨_, he', hc⟩, -⟩ := h.parent?_eq_some_iff.1 hc
    cases he.symm.trans he'
    exact Std.ExtTreeSet.not_mem_empty hc

/-- The records of the functions on a shelf have their numbers. -/
theorem spans_functions (h : ns.Arranged) (he : ns.get? o = some e)
    (hs : s.recorded = .function) : ns.Spans (ns.Records o s)
      ((Report.functionRecords ns (e.body.shelf s)).flatMap (·.toJson.numbersAt "id")) := by
  refine h.spans_shelf he (fun i e' _ he' hkind ↦ h.spans_function he' (hkind.trans hs))
    fun i e' _ _ hne ↦ ?_
  obtain ⟨_, _, body⟩ := e'
  cases body with
  | package | component | cls => rfl
  | function => exact absurd hs.symm hne

/-- A class has only methods in it. -/
theorem spans_class (h : ns.Arranged) (he : ns.get? o = some e) (hkind : e.kind = .cls) :
    ∃ r, Report.classRecord? ns e = some r ∧ ns.Spans (· = o) (r.toJson.numbersAt "id") := by
  obtain rfl := h.id_eq o e he
  have hlive := Option.isSome_iff_exists.2 ⟨e, he⟩
  obtain ⟨id, name, body⟩ := e
  cases body with
  | package | component | function => cases hkind
  | cls c =>
    refine ⟨_, rfl, ?_⟩
    rw [ClassRecord.numbersAt_toJson]
    have hmethods := h.spans_functions (s := .methods) he rfl
    refine Spans.cons (hmethods.congr fun i ↦ ?_) h.toConsistent hlive
    rw [h.parent?_eq_some_iff]
    refine ⟨fun ⟨s, hi⟩ ↦ ?_, fun hi ↦ ⟨_, hi⟩⟩
    have ⟨⟨_, he', hmem⟩, _⟩ := hi
    cases he.symm.trans he'
    cases s with
    | methods => exact hi
    | packages | components | classes | functions =>
      exact absurd hmem Std.ExtTreeSet.not_mem_empty

/-- The records of the classes of a component have their numbers and those of their methods. -/
theorem spans_classes (h : ns.Arranged) (he : ns.get? o = some e) :
    ns.Spans (ns.Records o .classes)
      ((((e.body.shelf .classes).toList.filterMap ns.get?).filterMap
        (Report.classRecord? ns)).flatMap (·.toJson.numbersAt "id")) := by
  refine h.spans_shelf he (fun i e' _ he' hkind ↦ h.spans_class he' hkind) fun i e' _ _ hne ↦ ?_
  obtain ⟨_, _, body⟩ := e'
  cases body with
  | package | component | function => rfl
  | cls => exact absurd rfl hne

/-- What is declared in a component. -/
theorem spans_declared (h : ns.Arranged) {id : Id} {name : QualName} {c : Component}
    (he : ns.get? o = some ⟨id, name, .component c⟩) :
    ns.Spans (fun i ↦ ns.Records o .classes i ∨ ns.Records o .functions i)
      (Report.componentRecord ns c).ids := by
  refine (h.spans_classes he).append (h.spans_functions (s := .functions) he rfl) h.toConsistent
    (a := o) ?_ ?_ fun i hi hi' ↦ ?_
  · exact fun i hi ↦ h.parent?_eq_some_iff.2 ⟨_, hi⟩
  · exact fun i hi ↦ h.parent?_eq_some_iff.2 ⟨_, hi⟩
  · cases hi.shelf_eq hi'

/-- What is in an entity, by its shelves. -/
theorem spans_children (h : ns.Arranged)
    (hkind : ns.kind? o = some .package ∨ ns.kind? o = some .component) {declared : List Id}
    (hpackages : ns.Spans (ns.Records o .packages) ids)
    (hcomponents : ns.Spans (ns.Records o .components) ids')
    (hdeclared : ns.Spans (fun c ↦ ns.Records o .classes c ∨ ns.Records o .functions c) declared) :
    ns.Spans (ns.parent? · = some o) (ids ++ ids' ++ declared) := by
  have hparent : ∀ {s c}, ns.Records o s c → ns.parent? c = some o := fun hc ↦
    h.parent?_eq_some_iff.2 ⟨_, hc⟩
  have hne : ∀ {s s' : Shelf}, s ≠ s' → ∀ c, ns.Records o s c → ¬ ns.Records o s' c :=
    fun hne c hc hc' ↦ hne (hc.shelf_eq hc')
  have hattached := hpackages.append hcomponents h.toConsistent (fun c ↦ hparent)
    (fun c ↦ hparent) (hne (by decide))
  refine (hattached.append hdeclared h.toConsistent (fun c hc ↦ hc.elim hparent hparent)
    (fun c hc ↦ hc.elim hparent hparent) fun c hc hc' ↦ ?_).congr fun c ↦ ?_
  · rcases hc with hc | hc
    · exact hc'.elim (hne (by decide) c hc) (hne (by decide) c hc)
    · exact hc'.elim (hne (by decide) c hc) (hne (by decide) c hc)
  · rw [h.parent?_eq_some_iff]
    constructor
    · rintro ⟨s, hc⟩
      cases s with
      | packages => exact .inl (.inl hc)
      | components => exact .inl (.inr hc)
      | classes => exact .inr (.inl hc)
      | functions => exact .inr (.inr hc)
      | methods =>
        rw [hc.1.kind?_of_methods] at hkind
        rcases hkind with hkind | hkind <;> cases hkind
    · rintro ((hc | hc) | hc | hc)
      · exact ⟨_, hc⟩
      · exact ⟨_, hc⟩
      · exact ⟨_, hc⟩
      · exact ⟨_, hc⟩

end Arranged

/-! ### Levels -/

/-- No entity is twice around another. -/
theorem Consistent.nodup_ancestors (h : ns.Consistent) (id : Id) : (ns.ancestors id).Nodup := by
  induction id using h.parent_induction with
  | step id ih =>
    cases hp : ns.parent? id with
    | none =>
      rw [ancestors_of_parent?_eq_none hp]
      exact List.nodup_singleton id
    | some p =>
      rw [h.ancestors_of_parent? hp]
      refine List.nodup_cons.2 ⟨fun hmem ↦ ?_, ih p hp⟩
      have hle := h.depth_le_of_mem hmem
      have hdepth := h.depth_parent? hp
      omega

/-- What is around an entity that is there is there. -/
theorem Consistent.isSome_get?_of_mem_ancestors (h : ns.Consistent) (hi : (ns.get? i).isSome)
    (ha : a ∈ ns.ancestors i) : (ns.get? a).isSome := by
  induction i using h.parent_induction with
  | step i ih =>
    rcases h.mem_ancestors_iff.1 ha with rfl | ⟨p, hp, hap⟩
    · exact hi
    · exact ih p hp (h.isSome_get?_of_parent? hp) hap

/-- There are no more entities around an entity than there are entities. -/
theorem Consistent.length_ancestors_le_size (h : ns.Consistent) (hi : (ns.get? i).isSome) :
    (ns.ancestors i).length ≤ ns.size := by
  have hsubset : ns.ancestors i ⊆ ns.entities.keys := fun a ha ↦
    Std.ExtTreeMap.mem_keys.2 (Std.ExtTreeMap.mem_iff_isSome_getElem?.2
      (h.isSome_get?_of_mem_ancestors hi ha))
  calc (ns.ancestors i).length
      ≤ ns.entities.keys.length := ((h.nodup_ancestors i).subperm hsubset).length_le
    _ = ns.size := Std.ExtTreeMap.length_keys

namespace Arranged

/-- Classes and functions may be among components, but have no record there. -/
theorem node?_eq_none {levels : Nat} (hi : ns.Houses o s i) (hs : s = .packages ∨ s = .components)
    (he : ns.get? i = some e) (hne : e.kind ≠ s.recorded) : Report.node? ns levels e = none := by
  obtain ⟨kind, hkind, hadmits⟩ := hi.kind
  rw [kind?, he] at hkind
  obtain rfl : e.kind = kind := Option.some.inj hkind
  cases levels with
  | zero => rfl
  | succ levels =>
    obtain ⟨_, _, body⟩ := e
    cases body with
    | cls | function => rfl
    | package =>
      rcases hs with rfl | rfl
      · exact absurd rfl hne
      · exact absurd rfl hadmits
    | component =>
      rcases hs with rfl | rfl
      · cases hadmits
      · exact absurd rfl hne

/-- A package or component has a record, and the numbers in it are those of the entities in it. -/
theorem spans_node (h : ns.Arranged) {levels : Nat} (he : ns.get? o = some e)
    (hkind : e.kind = .package ∨ e.kind = .component)
    (hlevels : ns.size < levels + (ns.ancestors o).length) :
    ∃ n, Report.node? ns levels e = some n ∧ ns.Spans (· = o) (n.toJson.numbersAt "id") := by
  induction levels generalizing o e with
  | zero =>
    have hle := h.length_ancestors_le_size (Option.isSome_iff_exists.2 ⟨e, he⟩)
    omega
  | succ levels ih =>
    obtain rfl := h.id_eq o e he
    have hlive := Option.isSome_iff_exists.2 ⟨e, he⟩
    have hnodes : ∀ s, s = .packages ∨ s = .components → ns.Spans (ns.Records e.id s)
        ((((e.body.shelf s).toList.filterMap ns.get?).filterMap
          (Report.node? ns levels)).flatMap (·.toJson.numbersAt "id")) := by
      intro s hs
      refine h.spans_shelf he (fun i e' hi he' hkind ↦ ih he' ?_ ?_) fun i e' hi he' hne ↦ ?_
      · rw [hkind]
        rcases hs with rfl | rfl
        · exact .inl rfl
        · exact .inr rfl
      · rw [h.ancestors_of_parent? hi.parent, List.length_cons]
        omega
      · exact node?_eq_none hi hs he' hne
    have hlive' : ns.kind? e.id = some .package ∨ ns.kind? e.id = some .component := by
      rw [kind?, he]
      exact hkind.imp (congrArg some) (congrArg some)
    obtain ⟨id, name, body⟩ := e
    cases body with
    | cls | function => rcases hkind with hkind | hkind <;> cases hkind
    | package p =>
      refine ⟨_, rfl, ?_⟩
      rw [Node.numbersAt_toJson]
      refine Spans.cons (h.spans_children hlive' (hnodes .packages (.inl rfl))
        (hnodes .components (.inr rfl)) (spans_nil fun i hi ↦ ?_)) h.toConsistent hlive
      have hcomponent : ns.kind? id = some .component := hi.elim
        (fun hi ↦ hi.1.kind?_of_declared (.inl rfl)) fun hi ↦ hi.1.kind?_of_declared (.inr rfl)
      rw [kind?, he] at hcomponent
      cases hcomponent
    | component c =>
      refine ⟨_, rfl, ?_⟩
      rw [Node.numbersAt_toJson]
      exact Spans.cons (h.spans_children hlive' (hnodes .packages (.inl rfl))
        (hnodes .components (.inr rfl)) (h.spans_declared he)) h.toConsistent hlive

/-! ### The whole tree -/

/-- Induction down the tree: what holds of the root and passes from each entity to those in it holds
of all that are there. -/
theorem tree_induction (h : ns.Arranged) {motive : Id → Prop}
    (root : ∀ r, ns.root = some r → motive r)
    (inside : ∀ o s i, ns.Houses o s i → motive o → motive i) (hi : (ns.get? i).isSome) :
    motive i := by
  induction i using h.parent_induction with
  | step i ih =>
    obtain ⟨e, he⟩ := Option.isSome_iff_exists.1 hi
    rcases h.inside i e.kind (by rw [kind?, he, Option.map_some]) with hroot | ⟨o, s, hhouses, -⟩
    · exact root i hroot
    · have hlive := h.isSome_get?_of_parent? hhouses.parent
      exact inside o s i hhouses (ih o hhouses.parent hlive)

/-- Where there is an entity there is a root. -/
theorem exists_root (h : ns.Arranged) (hi : (ns.get? i).isSome) : ∃ r, ns.root = some r :=
  h.tree_induction (motive := fun _ ↦ ∃ r, ns.root = some r) (fun r hr ↦ ⟨r, hr⟩)
    (fun _ _ _ _ hroot ↦ hroot) hi

/-- The root is around all entities. -/
theorem root_mem_ancestors (h : ns.Arranged) {r : Id} (hr : ns.root = some r)
    (hi : (ns.get? i).isSome) : r ∈ ns.ancestors i := by
  refine h.tree_induction (motive := fun i ↦ r ∈ ns.ancestors i) (fun r' hr' ↦ ?_)
    (fun o s i hhouses hmem ↦ ?_) hi
  · cases hr.symm.trans hr'
    exact h.mem_ancestors_iff.2 (.inl rfl)
  · exact h.mem_ancestors_iff.2 (.inr ⟨o, hhouses.parent, hmem⟩)

/-- The numbers in the document of the tree are those of the entities, and there is a tree unless
there is no entity. -/
theorem numbersAt_treeJson (h : ns.Arranged) :
    ((Report.ofNamespace ns).treeJson.numbersAt "id").Nodup ∧
    (∀ id, id ∈ (Report.ofNamespace ns).treeJson.numbersAt "id" ↔ (ns.get? id).isSome) ∧
    ((Report.ofNamespace ns).treeJson = .null ↔ ∀ id, ns.get? id = none) := by
  cases hroot : ns.root with
  | none =>
    have htree : (Report.ofNamespace ns).tree = none := by rw [Report.ofNamespace, hroot]; rfl
    have hnone : ∀ id, ns.get? id = none := by
      intro id
      by_contra hne
      obtain ⟨r, hr⟩ := h.exists_root (Option.isSome_iff_ne_none.2 hne)
      rw [hroot] at hr
      cases hr
    rw [Report.treeJson, htree]
    simp [hnone]
  | some r =>
    obtain ⟨e, he, hkind⟩ := exists_get?_of_container (h.top r hroot).2
    have hself : r ∈ ns.ancestors r :=
      h.root_mem_ancestors hroot (Option.isSome_iff_exists.2 ⟨e, he⟩)
    have hlevels : ns.size < ns.size + (ns.ancestors r).length :=
      Nat.lt_add_of_pos_right (List.length_pos_of_mem hself)
    obtain ⟨n, hn, hspans⟩ := h.spans_node he hkind hlevels
    have htree : (Report.ofNamespace ns).tree = some n := by
      rw [Report.ofNamespace, hroot, Option.bind_some, he, Option.bind_some, hn]
    rw [Report.treeJson, htree]
    refine ⟨hspans.nodup, fun id ↦ ?_, iff_of_false n.toJson_ne_null fun hnone ↦ ?_⟩
    · rw [hspans.mem_iff]
      exact and_iff_left_of_imp fun hid ↦ ⟨r, rfl, h.root_mem_ancestors hroot hid⟩
    · rw [hnone r] at he
      cases he

end Arranged

end Namespace

/-! ### After an analysis -/

section Analysis

variable {project : Project} {a : Analysis} {r : Relation}

/-- All relations are between entities that are there. -/
theorem Project.links_of_analyze (h : project.analyze = .ok a) (hr : r ∈ a.ns.relations) :
    a.ns.Links r := by
  obtain ⟨built, ns, called, himported, hrelate, hns⟩ := Project.exists_relate h
  obtain ⟨hdependencies, hassociations, hnone, hcalled⟩ :=
    himported.typed_of_relate (by simp [Project.scheduleOf]) hrelate
  have hcondense := Namespace.sameScopes_condense called
  have hsame := hcalled.trans hcondense
  rw [hns, Namespace.relations, Namespace.dependencies_condense, Namespace.associations_condense,
    List.mem_append, List.mem_append] at hr
  rw [hns]
  rcases hr with (hr | hr) | hr
  · exact hsame.links (hdependencies r hr).1
  · obtain ⟨hweight, -, hsource, htarget⟩ := hassociations r hr
    exact hsame.links ⟨by rw [hsource]; rfl, by rw [htarget]; rfl, hweight⟩
  · have hconsistent := (hcalled.tidy himported.housed.toTidy).toConsistent
    obtain ⟨hweight, -, -, parent, hsource, htarget⟩ := hconsistent.siblings_of_condensed hnone hr
    exact hcondense.links ⟨Namespace.isSome_kind?_of_parent? hsource,
      Namespace.isSome_kind?_of_parent? htarget, hweight⟩

/-- **The document of the tree is complete.** If the directories of a project have different names
without dots and none of them is ignored, the document of the tree after an analysis has the number
of each entity that is there, in one record, and no other number. There is no tree exactly if there
is no entity. And the numbers at the ends of relations, in the other document, are in the tree. -/
theorem tree_document_complete (hdistinct : Entry.Distinct project.entries)
    (hdots : project.Undotted) (hfilter : project.Unfiltered) (h : project.analyze = .ok a) :
    let tree := (Report.ofNamespace a.ns).treeJson
    let relations := relationsJson (Report.ofNamespace a.ns).relations
    (tree.numbersAt "id").Nodup ∧
    (∀ id, id ∈ tree.numbersAt "id" ↔ (a.ns.get? id).isSome) ∧
    (tree = .null ↔ ∀ id, a.ns.get? id = none) ∧
    ∀ id ∈ relations.numbersAt "source" ++ relations.numbersAt "target",
      id ∈ tree.numbersAt "id" := by
  obtain ⟨hnodup, hmem, hnull⟩ :=
    (project.arranged_of_analyze hdistinct hdots hfilter h).numbersAt_treeJson
  refine ⟨hnodup, hmem, hnull, fun id hid ↦ (hmem id).2 ?_⟩
  have hlive : ∀ {id}, (a.ns.kind? id).isSome → (a.ns.get? id).isSome := fun hid ↦ by
    rwa [Namespace.kind?, Option.isSome_map] at hid
  rw [numbersAt_source_relationsJson, numbersAt_target_relationsJson, List.mem_append] at hid
  rcases hid with hid | hid
  · obtain ⟨r, hr, rfl⟩ := List.mem_map.1 hid
    exact hlive (Project.links_of_analyze h hr).source
  · obtain ⟨r, hr, rfl⟩ := List.mem_map.1 hid
    exact hlive (Project.links_of_analyze h hr).target

/-- A project with a package, a module with a class in it, and a class at the root that an empty
directory is taken for. -/
def mixedProject : Project where
  name := "p"
  location := "p"
  entries := [
    .file markerName "class s:\n def k():0\ndef u():s()\n".toUTF8,
    .directory "a" [.file "m.py" "class Q:\n def r(z):0\n".toUTF8],
    .directory "s" []]
  filter := []

theorem distinct_mixedProject : Entry.Distinct mixedProject.entries := by
  have hmarker : Entry.write [] "class s:\n def k():0\ndef u():s()\n".toUTF8 [markerName] =
      .ok [.file markerName "class s:\n def k():0\ndef u():s()\n".toUTF8] := rfl
  have hmodule : Entry.write [] "class Q:\n def r(z):0\n".toUTF8 ["m.py"] =
      .ok [.file "m.py" "class Q:\n def r(z):0\n".toUTF8] := rfl
  have hinner := Entry.ordered_nil.write hmodule
  exact (((Entry.ordered_nil.write hmarker).put_directory hinner "a").put_directory
    Entry.ordered_nil "s").distinct

/-- The class that is attached to the root is in the document once. -/
theorem tree_document_of_mixedProject :
    Entry.Distinct mixedProject.entries ∧ mixedProject.Undotted ∧ mixedProject.Unfiltered ∧
      ∃ a, mixedProject.analyze = .ok a ∧ a.ns.Holds 5 .components 6 ∧ a.ns.kind? 6 = some .cls ∧
        let tree := (Report.ofNamespace a.ns).treeJson
        let relations := relationsJson (Report.ofNamespace a.ns).relations
        tree.numbersAt "id" = [5, 0, 1, 2, 3, 6, 7, 8] ∧
        relations.numbersAt "source" ++ relations.numbersAt "target" = [8, 8, 6, 6] ∧
        (tree.numbersAt "id").Nodup ∧
        (∀ id, id ∈ tree.numbersAt "id" ↔ (a.ns.get? id).isSome) ∧
        (tree = .null ↔ ∀ id, a.ns.get? id = none) ∧
        ∀ id ∈ relations.numbersAt "source" ++ relations.numbersAt "target",
          id ∈ tree.numbersAt "id" := by
  have hfilter : mixedProject.Unfiltered := fun _ _ _ _ ↦ rfl
  have hdots : mixedProject.Undotted := by
    refine Project.undotted_of_directories hfilter ?_
    decide +kernel
  have hanalyze : (mixedProject.analyzeOnce?.map fun ns ↦
      (decide (ns.Holds 5 .components 6), ns.kind? 6,
        (Report.ofNamespace ns).treeJson.numbersAt "id",
        (relationsJson (Report.ofNamespace ns).relations).numbersAt "source" ++
          (relationsJson (Report.ofNamespace ns).relations).numbersAt "target")) =
      some (true, some .cls, [5, 0, 1, 2, 3, 6, 7, 8], [8, 8, 6, 6]) := by
    decide +kernel
  obtain ⟨a, ha, hread⟩ := Project.exists_analyze_of_analyzeOnce? hanalyze
  simp only [Prod.mk.injEq, decide_eq_true_eq] at hread
  obtain ⟨hholds, hkind, hids, hends⟩ := hread
  exact ⟨distinct_mixedProject, hdots, hfilter, a, ha, hholds, hkind, hids, hends,
    tree_document_complete distinct_mixedProject hdots hfilter ha⟩

end Analysis

end CodeAtlas
