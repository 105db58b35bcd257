import CodeAtlas.Report
import CodeAtlas.Proofs.Arrangement

/-!
# What holds what ends

What is on the shelves of an entity is named inside it (`Namespace.Encloses`). So names get longer
from an entity to what it holds, whatever way it got onto the shelf: nothing holds itself, through
however many others, and going from entities to what they hold comes to an end
(`Encloses.wellFounded_inside`).

## Names inside names

It is not said that the parent by name is what holds an entity. A directory whose name has dots in
it is held by an entity that is several segments above it, and one whose name ends with a dot has an
empty segment. What remains true in all projects is that the text of the name is that of the other,
a dot and some more text, and this is enough for the lengths of names to go up.

## The records of the tree

The records of the tree are made by going from entities to what they hold. `Report.node?` counts the
levels; the recursion itself has no bound: the record of an entity has those of what is on two of
its shelves. `Report.NodeRun` and `Report.NodeRuns` are this recursion as relations between entities
and outcomes; that it ends is that there is an outcome. No entity is more levels above another than
there are entities with longer names (`Namespace.longer`), so the bound is never met, and the
recursion ends with the record that the bounded one gives (`Encloses.nodeRun_iff`).
-/

namespace CodeAtlas

/-! ### The recursion without a bound -/

namespace Report

mutual

/-- The record of an entity is asked for, and this is the outcome. -/
inductive NodeRun (ns : Namespace) : Entity → Option Node → Prop
  /-- A package has those in it. -/
  | package {e : Entity} {p : Package} {packages components : List Node}
      (hbody : e.body = .package p)
      (hpackages : NodeRuns ns p.children.packages.toList packages)
      (hcomponents : NodeRuns ns p.children.components.toList components) :
      NodeRun ns e (some (.mk e.id (namesOf e) p.relations.toList none packages components))
  /-- A component has those in it, and what is declared there. -/
  | component {e : Entity} {c : Component} {packages components : List Node}
      (hbody : e.body = .component c)
      (hpackages : NodeRuns ns c.children.packages.toList packages)
      (hcomponents : NodeRuns ns c.children.components.toList components) :
      NodeRun ns e (some (.mk e.id (namesOf e) c.relations.toList (some (componentRecord ns c))
        packages components))
  /-- There are no such records of classes and functions. -/
  | other {e : Entity} (hpackage : e.kind ≠ .package) (hcomponent : e.kind ≠ .component) :
      NodeRun ns e none

/-- The records of the entities with some numbers are asked for one after another, and these are the
outcomes. -/
inductive NodeRuns (ns : Namespace) : List Id → List Node → Prop
  | nil : NodeRuns ns [] []
  | missing {id : Id} {ids : List Id} {nodes : List Node} (hid : ns.get? id = none)
      (hids : NodeRuns ns ids nodes) : NodeRuns ns (id :: ids) nodes
  | skipped {id : Id} {ids : List Id} {e : Entity} {nodes : List Node} (hid : ns.get? id = some e)
      (hnode : NodeRun ns e none) (hids : NodeRuns ns ids nodes) : NodeRuns ns (id :: ids) nodes
  | recorded {id : Id} {ids : List Id} {e : Entity} {node : Node} {nodes : List Node}
      (hid : ns.get? id = some e) (hnode : NodeRun ns e (some node))
      (hids : NodeRuns ns ids nodes) :
      NodeRuns ns (id :: ids) (node :: nodes)

end

variable {ns : Namespace} {levels : Nat} {ids : List Id} {nodes : List Node}

/-- Where each record is that of the bounded recursion, so are all of them. -/
theorem nodeRuns_iff
    (h : ∀ id ∈ ids, ∀ e, ns.get? id = some e → ∀ r, NodeRun ns e r ↔ r = node? ns levels e) :
    NodeRuns ns ids nodes ↔ nodes = (ids.filterMap ns.get?).filterMap (node? ns levels) := by
  induction ids generalizing nodes with
  | nil =>
    constructor
    · rintro ⟨⟩
      rfl
    · rintro rfl
      exact .nil
  | cons id ids ih =>
    have hids : ∀ nodes, NodeRuns ns ids nodes ↔
        nodes = (ids.filterMap ns.get?).filterMap (node? ns levels) :=
      fun nodes ↦ ih fun i hi ↦ h i (List.mem_cons_of_mem _ hi)
    cases hid : ns.get? id with
    | none =>
      rw [List.filterMap_cons_none hid, ← hids]
      constructor
      · intro hruns
        cases hruns with
        | missing _ hruns => exact hruns
        | skipped hid' | recorded hid' => cases hid.symm.trans hid'
      · exact .missing hid
    | some e =>
      have hnode := h id List.mem_cons_self e hid
      rw [List.filterMap_cons_some hid]
      cases hr : node? ns levels e with
      | none =>
        rw [List.filterMap_cons_none hr, ← hids]
        constructor
        · intro hruns
          cases hruns with
          | missing hid' => cases hid.symm.trans hid'
          | skipped _ _ hruns => exact hruns
          | recorded hid' hrecorded =>
            cases hid.symm.trans hid'
            cases ((hnode _).1 hrecorded).trans hr
        · exact .skipped hid ((hnode none).2 hr.symm)
      | some node =>
        rw [List.filterMap_cons_some hr]
        constructor
        · intro hruns
          cases hruns with
          | missing hid' => cases hid.symm.trans hid'
          | skipped hid' hnone =>
            cases hid.symm.trans hid'
            cases ((hnode _).1 hnone).trans hr
          | recorded hid' hrecorded hruns =>
            cases hid.symm.trans hid'
            cases ((hnode _).1 hrecorded).trans hr
            rw [(hids _).1 hruns]
        · rintro rfl
          exact .recorded hid ((hnode _).2 hr.symm) ((hids _).2 rfl)

/-- Where the records of what is on the shelves of an entity are those of the bounded recursion, so
is the record of the entity, with one level more. -/
theorem nodeRun_iff_of_shelf {e : Entity}
    (h : ∀ s nodes, NodeRuns ns (e.body.shelf s).toList nodes ↔
      nodes = ((e.body.shelf s).toList.filterMap ns.get?).filterMap (node? ns levels))
    (r : Option Node) : NodeRun ns e r ↔ r = node? ns (levels + 1) e := by
  have hpackages := h .packages
  have hcomponents := h .components
  obtain ⟨id, name, body⟩ := e
  cases body with
  | package p =>
    constructor
    · intro hrun
      cases hrun with
      | package hbody hpackages' hcomponents' =>
        cases hbody
        rw [(hpackages _).1 hpackages', (hcomponents _).1 hcomponents']
        rfl
      | component hbody => cases hbody
      | other hpackage => exact absurd rfl hpackage
    · rintro rfl
      exact .package rfl ((hpackages _).2 rfl) ((hcomponents _).2 rfl)
  | component c =>
    constructor
    · intro hrun
      cases hrun with
      | package hbody => cases hbody
      | component hbody hpackages' hcomponents' =>
        cases hbody
        rw [(hpackages _).1 hpackages', (hcomponents _).1 hcomponents']
        rfl
      | other _ hcomponent => exact absurd rfl hcomponent
    · rintro rfl
      exact .component rfl ((hpackages _).2 rfl) ((hcomponents _).2 rfl)
  | cls | function =>
    constructor
    · intro hrun
      cases hrun with
      | package hbody | component hbody => cases hbody
      | other => rfl
    · rintro rfl
      refine .other (fun hpackage ↦ ?_) fun hcomponent ↦ ?_
      · cases hpackage
      · cases hcomponent

end Report

/-! ### Names inside names -/

namespace Namespace

variable {project : Project} {built ns ns' : Namespace} {o i id : Id} {s : Shelf} {e e' : Entity}

/-- What is on the shelves of an entity is there, and named inside it. -/
def Encloses (ns : Namespace) : Prop :=
  ∀ o s i e, ns.get? o = some e → ns.Holds o s i →
    ∃ e' suffix, ns.get? i = some e' ∧ e'.qualName = e.qualName.child suffix

/-- What is built is named inside what holds it: what is declared because the one is around the
other by name, and what is attached because it was found under such a name. -/
theorem encloses_build (h : project.build = .ok ns) : ns.Encloses := by
  intro o s i e he hi
  have hcomplete := complete_build h
  cases hs : s.isDeclared with
  | true =>
    obtain ⟨e', he', name, hname, hlookup⟩ := parent?_eq_some_iff.1 (parent?_of_isDeclared h hs hi)
    obtain ⟨_, he'', rfl⟩ := hcomplete.exists_of_lookup name o hlookup
    cases he.symm.trans he''
    exact ⟨e', e'.qualName.name, he', (QualName.child_name_of_parent hname).symm⟩
  | false =>
    have hs := Shelf.isDeclared_eq_false_iff.1 hs
    obtain ⟨d, hgets⟩ := hcomplete.origin o (hcomplete.around o (hi.hasChild hs))
    obtain ⟨e', short, he', hname, -⟩ := hgets.exists_child_or_listed h hs hi
    rw [← (hgets.named h he).1] at hname
    exact ⟨e', short, he', hname⟩

/-- Whether entities are named inside what holds them is seen in outlines. -/
theorem SameOutline.encloses (h : ns.SameOutline ns') (hns : ns.Encloses) : ns'.Encloses := by
  intro o s i e he hi
  obtain ⟨e₁, he₁, houter⟩ := h.symm.exists_get? he
  obtain ⟨e₂, suffix, he₂, hname⟩ := hns o s i e₁ he₁ (h.holds.1 hi)
  obtain ⟨e', he', hinner⟩ := h.exists_get? he₂
  have houter : e₁.qualName = e.qualName := congrArg Outline.qualName houter
  have hinner : e'.qualName = e₂.qualName := congrArg Outline.qualName hinner
  exact ⟨e', suffix, he', by rw [hinner, hname, houter]⟩

/-! ### Lengths of names -/

/-- The length of the name of an entity. -/
def nameLength (ns : Namespace) (id : Id) : Nat :=
  ((ns.get? id).map (·.qualName.text.length)).getD 0

/-- How many entities have longer names than an entity. -/
def longer (ns : Namespace) (id : Id) : Nat :=
  (ns.entities.keys.filter fun j ↦ ns.nameLength id < ns.nameLength j).length

theorem mem_keys_of_get? (he : ns.get? id = some e) : id ∈ ns.entities.keys :=
  Std.ExtTreeMap.mem_keys.2 (Std.ExtTreeMap.mem_iff_isSome_getElem?.2
    (Option.isSome_iff_exists.2 ⟨e, he⟩))

/-- There are fewer entities with longer names than entities. -/
theorem longer_lt_size (he : ns.get? id = some e) : ns.longer id < ns.size := by
  have hlength : ns.entities.keys.length = ns.size := Std.ExtTreeMap.length_keys
  rw [longer, ← hlength, List.length_filter_lt_length_iff_exists]
  exact ⟨id, mem_keys_of_get? he, by simp⟩

namespace Encloses

variable (h : ns.Encloses)

include h

/-- What an entity holds is there, and has a longer name. -/
theorem nameLength_lt (hi : ns.Holds o s i) :
    (ns.get? i).isSome ∧ ns.nameLength o < ns.nameLength i := by
  obtain ⟨e, he, hmem⟩ := hi
  obtain ⟨e', suffix, he', hname⟩ := h o s i e he ⟨e, he, hmem⟩
  refine ⟨Option.isSome_iff_exists.2 ⟨e', he'⟩, ?_⟩
  have hdot : ".".length = 1 := rfl
  rw [nameLength, nameLength, he, he', Option.map_some, Option.map_some, Option.getD_some,
    Option.getD_some, hname, QualName.child, String.length_append, String.length_append, hdot]
  omega

/-- Fewer entities have longer names than what an entity holds than have longer names than the
entity itself. -/
theorem longer_lt (hi : ns.Holds o s i) : ns.longer i < ns.longer o := by
  obtain ⟨hlive, hlt⟩ := h.nameLength_lt hi
  obtain ⟨e, he⟩ := Option.isSome_iff_exists.1 hlive
  have hfilter : (ns.entities.keys.filter fun j ↦ ns.nameLength i < ns.nameLength j) =
      (ns.entities.keys.filter fun j ↦ ns.nameLength o < ns.nameLength j).filter
        fun j ↦ ns.nameLength i < ns.nameLength j := by
    rw [List.filter_filter]
    refine List.filter_congr fun j _ ↦ ?_
    rw [Bool.eq_iff_iff, Bool.and_eq_true, decide_eq_true_eq, decide_eq_true_eq]
    exact ⟨fun hj ↦ ⟨hj, Nat.lt_trans hlt hj⟩, And.left⟩
  rw [longer, hfilter, longer, List.length_filter_lt_length_iff_exists]
  exact ⟨i, List.mem_filter.2 ⟨mem_keys_of_get? he, decide_eq_true hlt⟩, by simp⟩

/-- Going from entities to what they hold comes to an end. -/
theorem wellFounded_inside : WellFounded fun i o ↦ ∃ s, ns.Holds o s i := by
  refine Subrelation.wf (fun {i o} hinside ↦ ?_) (InvImage.wf ns.longer Nat.lt_wfRel.wf)
  obtain ⟨s, hi⟩ := hinside
  exact h.longer_lt hi

/-- Nothing is inside itself. -/
theorem not_transGen_self (i : Id) : ¬ Relation.TransGen (fun o i ↦ ∃ s, ns.Holds o s i) i i := by
  have hlt : ∀ {o i}, Relation.TransGen (fun o i ↦ ∃ s, ns.Holds o s i) o i →
      ns.nameLength o < ns.nameLength i := by
    intro o i hinside
    induction hinside with
    | single hi =>
      obtain ⟨s, hi⟩ := hi
      exact (h.nameLength_lt hi).2
    | tail _ hi ih =>
      obtain ⟨s, hi⟩ := hi
      exact Nat.lt_trans ih (h.nameLength_lt hi).2
  exact fun hinside ↦ Nat.lt_irrefl _ (hlt hinside)

/-- **The recursion ends**, with the record that the bounded one gives if there are more levels than
entities with longer names. -/
theorem nodeRun_iff {levels : Nat} (he : ns.get? id = some e) (hlevels : ns.longer id < levels)
    (r : Option Node) : Report.NodeRun ns e r ↔ r = Report.node? ns levels e := by
  induction levels generalizing id e r with
  | zero => exact absurd hlevels (Nat.not_lt_zero _)
  | succ levels ih =>
    refine Report.nodeRun_iff_of_shelf (fun s nodes ↦ ?_) r
    refine Report.nodeRuns_iff fun i hi e' he' r ↦ ih he' ?_ r
    exact Nat.lt_of_lt_of_le (h.longer_lt ⟨e, he, Std.ExtTreeSet.mem_toList.1 hi⟩)
      (Nat.le_of_lt_succ hlevels)

end Encloses

end Namespace

/-! ### After building -/

variable {project : Project} {built ns : Namespace}

/-- **Containment is well founded.** After building, and after any further passes over files or all
files, what is on the shelves of an entity is there, and its name is that of the entity, a dot and
some more text, which may be empty. So nothing is inside itself, through however many others, and
going inwards comes to an end. The recursion that makes the records of the tree has one outcome for
each entity, which for the root is the tree of the report. -/
theorem containment_well_founded (h : project.build = .ok built) (hlater : built.Later ns) :
    (project.RunsStay built.Later ns ∧ built.Later ns.condense ∧
      ∀ a, project.analyze = .ok a → built.Later a.ns) ∧
    (∀ o s i e, ns.get? o = some e → ns.Holds o s i →
      ∃ e' suffix, ns.get? i = some e' ∧ e'.qualName.text = e.qualName.text ++ "." ++ suffix) ∧
    (∀ i, ¬ Relation.TransGen (fun o i ↦ ∃ s, ns.Holds o s i) i i) ∧
    WellFounded (fun i o ↦ ∃ s, ns.Holds o s i) ∧
    (∀ id e, ns.get? id = some e → ∀ r, Report.NodeRun ns e r ↔ r = Report.node? ns ns.size e) ∧
    ∀ root e, ns.root = some root → ns.get? root = some e → ∀ r,
      Report.NodeRun ns e r ↔ r = (Report.ofNamespace ns).tree := by
  have hencloses := hlater.sameOutline.encloses (Namespace.encloses_build h)
  have hnode : ∀ id e, ns.get? id = some e → ∀ r,
      Report.NodeRun ns e r ↔ r = Report.node? ns ns.size e :=
    fun id e he ↦ hencloses.nodeRun_iff he (Namespace.longer_lt_size he)
  refine ⟨⟨hlater.runsStay project, hlater.condense, fun a ↦ Project.later_of_analyze h⟩,
    fun o s i e he hi ↦ ?_, hencloses.not_transGen_self, hencloses.wellFounded_inside, hnode,
    fun root e hroot he r ↦ ?_⟩
  · obtain ⟨e', suffix, he', hname⟩ := hencloses o s i e he hi
    exact ⟨e', suffix, he', congrArg QualName.text hname⟩
  · rw [hnode root e he, Report.ofNamespace, hroot, Option.bind_some, he, Option.bind_some]

/-- A project with one directory, whose name has dots in it and at its end. -/
def dottedDirectoryProject : Project where
  name := "p"
  location := "p"
  entries := [.directory "a.b." [.file markerName "class t:0\n".toUTF8]]
  filter := []

/-- The directory is held by the root, which is not its parent by name, and is named inside it. -/
theorem containment_of_dotted_directory :
    ∃ built root, dottedDirectoryProject.build = .ok built ∧ built.Later built.condense ∧
      built.condense.get? 2 = some root ∧ built.condense.Holds 2 .components 0 ∧
      (∃ e' suffix, built.condense.get? 0 = some e' ∧
        e'.qualName.text = root.qualName.text ++ "." ++ suffix) ∧
      (∀ i, ¬ Relation.TransGen (fun o i ↦ ∃ s, built.condense.Holds o s i) i i) ∧
      ∀ r, Report.NodeRun built.condense root r ↔
        r = (Report.ofNamespace built.condense).tree := by
  have hbuild : (dottedDirectoryProject.build.toOption.map fun ns ↦
      ((ns.condense.get? 2).map (·.qualName), ns.condense.root,
        decide (ns.condense.Holds 2 .components 0))) = some (some ⟨"p"⟩, some 2, true) := by
    decide +kernel
  obtain ⟨built, hbuilt, hread⟩ := exists_ok_of_toOption hbuild
  simp only [Prod.mk.injEq, decide_eq_true_eq] at hread
  obtain ⟨hname, hroot, hholds⟩ := hread
  obtain ⟨root, he, -⟩ := Option.map_eq_some_iff.1 hname
  have hlater : built.Later built.condense := .condense .refl
  obtain ⟨-, hnames, hcycle, -, -, htree⟩ := containment_well_founded hbuilt hlater
  exact ⟨built, root, hbuilt, hlater, he, hholds, hnames 2 _ 0 root he hholds, hcycle,
    htree 2 root hroot he⟩

end CodeAtlas
