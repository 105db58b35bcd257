import CodeAtlas.Proofs.DeclaredTables
import CodeAtlas.Proofs.Imports.Resolution
import CodeAtlas.Proofs.LiveNames
import CodeAtlas.Proofs.Refinements

/-!
# Names that a module exports, imported all at once or one by one

`from b import *` and `from b import n` look for a name that `b` exports in different places, and in
a different order. The first looks at what `b` imports and then at what it declares. The second
looks for an entity inside `b`, declared or not, and then at what `b` imports. So they can only
differ where there is an entity of the name inside `b`: then the second always finds it, and the
first finds it unless `b` imports something else under the name, or the entity is a module or
directory that `b` does not import.

## While imports are resolved

Both are compared in every state that occurs while imports are resolved (`Resolving`), which is more
than the states between files. In all of them names lead to entities (`Resolving.named`) and
entities are as they were built (`Resolving.exists_sameOutline`).

## What the two statements bind

`ofFrom_all` and `ofFrom_one` give what each statement binds and counts. The comparison
(`listed_name_alone`) then goes through the cases in which a name is imported, declared, or neither.
The name of the export list itself is an exception, since a clause for it binds nothing.
-/

namespace CodeAtlas

/-- `from … import *` -/
def FromImport.all (path : Option String) (level : Nat) : FromImport :=
  ⟨path, level, true, []⟩

/-- `from … import name` -/
def FromImport.one (path : Option String) (level : Nat) (name : String) : FromImport :=
  ⟨path, level, false, [⟨name, none⟩]⟩

namespace Imports

variable {project : Project} {ns : Namespace} {importer id : Id} {path : Option String}
  {level : Nat} {b q : QualName} {c : Component} {names : List String} {name : String}

/-! ### While imports are resolved -/

/-- The namespaces that occur while imports are resolved: the one whose export lists were resolved,
and what an import statement makes of another. -/
inductive Resolving (project : Project) : Namespace → Prop
  | start {built ns : Namespace} {settled : Settled} (hbuild : project.build = .ok built)
      (hexports : project.resolve Exports.pass built = .ok (ns, settled)) : Resolving project ns
  | step {p : Progress} (h : Resolving project p.ns) (visit : Visit) :
      Resolving project (Imports.step p visit).ns

namespace Resolving

/-- A pass over a file leads from one state of import resolution to another. -/
theorem pass {p : Progress} (h : Resolving project p.ns) (component : Id) (file : List Stmt) :
    Resolving project (Imports.pass component file p).ns := by
  unfold Imports.pass
  induction Visit.ofFile p.ns {} component file generalizing p with
  | nil => exact h
  | cons visit rest ih => exact ih (h.step visit)

/-- While imports are resolved names lead to entities. -/
theorem named (h : Resolving project ns) : ns.Named := by
  induction h with
  | start hbuild hexports =>
    exact (Exports.sameScopes_resolve hexports).named (Namespace.named_build hbuild)
  | @step p _ visit ih => exact named_run [visit] ih

/-- While imports are resolved entities are as they were built. -/
theorem exists_sameOutline (h : Resolving project ns) :
    ∃ built, project.build = .ok built ∧ built.SameOutline ns := by
  induction h with
  | start hbuild hexports => exact ⟨_, hbuild, (Exports.sameScopes_resolve hexports).toSameOutline⟩
  | @step p _ visit ih =>
    obtain ⟨built, hbuild, hsame⟩ := ih
    exact ⟨built, hbuild, hsame.trans (.of_frame (grows_step p visit).frame)⟩

end Resolving

/-! ### What the two statements bind -/

section Statements

variable (hb : ns.importSource importer path level = some b) (hid : ns.lookup b = some id)
  (hc : ns.component? id = some c)

include hb hid hc

/-- All names at once: those that the module knows are bound, and the others count. -/
theorem ofFrom_all (hnames : c.exports = some names) :
    ofFrom ns importer (.all path level) =
      (names.filterMap fun name ↦ (exported c name).map (name, ·),
        names.countP fun name ↦ (exported c name).isNone) := by
  simp only [ofFrom, FromImport.all, hb, hid, if_true, ofWildcard, hc, hnames, List.filterMap_map,
    List.countP_map]
  refine Prod.ext rfl (congrArg (List.countP · names) (funext fun name ↦ ?_))
  exact Option.isNone_map

/-- All names at once binds an exported name to what the module knows it as. -/
theorem mem_ofFrom_all_iff (hnames : c.exports = some names) (hname : name ∈ names) :
    (name, q) ∈ (ofFrom ns importer (.all path level)).1 ↔ exported c name = some q := by
  rw [ofFrom_all hb hid hc hnames, List.mem_filterMap]
  constructor
  · rintro ⟨name', -, hfound⟩
    obtain ⟨q', hq', heq⟩ := Option.map_eq_some_iff.1 hfound
    cases heq
    exact hq'
  · intro hq
    exact ⟨name, hname, by rw [hq]; rfl⟩

/-- All names at once leaves an exported name open that the module does not know. -/
theorem not_mem_ofFrom_all_iff (hnames : c.exports = some names) (hname : name ∈ names) :
    name ∉ (ofFrom ns importer (.all path level)).1.map Prod.fst ↔ exported c name = none := by
  have hmem : ∀ {q}, (name, q) ∈ (ofFrom ns importer (.all path level)).1 ↔ _ :=
    mem_ofFrom_all_iff hb hid hc hnames hname
  rw [Option.eq_none_iff_forall_ne_some, List.mem_map]
  constructor
  · rintro hnot q hq
    exact hnot ⟨(name, q), hmem.2 hq, rfl⟩
  · rintro hnone ⟨⟨_, q⟩, hbound, rfl⟩
    exact hnone q (hmem.1 hbound)

/-- What counts as open is what is not bound. -/
theorem count_ofFrom_all (hnames : c.exports = some names) :
    (ofFrom ns importer (.all path level)).2 =
      names.countP (· ∉ (ofFrom ns importer (.all path level)).1.map Prod.fst) := by
  have hcount := congrArg Prod.snd (ofFrom_all hb hid hc hnames)
  rw [hcount]
  refine List.countP_congr fun name hname ↦ ?_
  rw [decide_eq_true_iff, not_mem_ofFrom_all_iff hb hid hc hnames hname,
    Option.isNone_iff_eq_none]

/-- One name: an entity inside the module, or else what the module imports. -/
theorem ofFrom_one (hname : name ≠ exportVariable) :
    ofFrom ns importer (.one path level name) =
      if (ns.lookup (b.child name)).isSome then ([(name, b.child name)], 0)
      else c.scope.imported[name]?.elim ([], 1) fun q ↦ ([(name, q)], 0) := by
  have hkept : (name != exportVariable) = true := bne_iff_ne.2 hname
  simp only [ofFrom, FromImport.one, hb, Bool.false_eq_true, if_false, ofClauses, hid,
    List.filter_cons, hkept, if_true, List.filter_nil, List.map_cons, List.map_nil, forwarded,
    Option.bind_some, Namespace.scope?_of_component? hc, Option.isSome_some, ImportClause.binding,
    Option.getD_none]
  split
  · rfl
  · rcases c.scope.imported[name]? with - | q <;> rfl

end Statements

/-- What a module exports is what it imports, or else declares. -/
theorem exported_cases (h : exported c name = some q) :
    c.scope.imported[name]? = some q ∨
      c.scope.imported[name]? = none ∧ c.scope.declared[name]? = some q := by
  unfold exported at h
  rcases himported : c.scope.imported[name]? with - | q'
  · rw [himported] at h
    exact .inr ⟨rfl, h⟩
  · rw [himported] at h
    exact .inl h

/-- A name is not known to a module that neither imports nor declares it. -/
theorem exported_eq_none_iff :
    exported c name = none ↔ c.scope.imported[name]? = none ∧ c.scope.declared[name]? = none := by
  simp [exported]

/-- A clause for the export list binds nothing, and counts nothing. -/
theorem ofFrom_one_exportVariable (ns : Namespace) (importer : Id) (path : Option String)
    (level : Nat) : ofFrom ns importer (.one path level exportVariable) = ([], 0) := by
  simp only [ofFrom, FromImport.one]
  rcases ns.importSource importer path level with - | b
  · rfl
  · simp [ofClauses]

/-- What a module declares is an entity inside of it. -/
theorem eq_child_of_declared (h : ns.Named) (hid : ns.lookup b = some id)
    (hc : ns.component? id = some c) (hq : c.scope.declared[name]? = some q) :
    q = b.child name ∧ (ns.lookup (b.child name)).isSome := by
  obtain ⟨e, he, rfl⟩ := h.exists_of_lookup b id hid
  have hscope := Namespace.scope?_of_component? hc
  rw [Namespace.scope?, he, Option.bind_some] at hscope
  obtain ⟨rfl, target, body, -, htarget⟩ := h.declared id e he c.scope hscope name q hq
  exact ⟨rfl, by rw [htarget.lookup h.toConsistent]; rfl⟩

/-- A name is that of an entity exactly if it is found. -/
theorem live_iff (h : ns.Named) : ns.Live q ↔ (ns.lookup q).isSome := by
  refine ⟨?_, h.toConsistent.live⟩
  rintro ⟨id, kind, hlookup, -⟩
  rw [hlookup]
  rfl

/-- An entity inside a module that the module does not declare is a module or directory. -/
theorem kind_of_not_declared (h : Resolving project ns) (hid : ns.lookup b = some id)
    (hc : ns.component? id = some c) (hname : '.' ∉ name.toList)
    (hnone : c.scope.declared[name]? = none) {i : Id} (hi : ns.lookup (b.child name) = some i) :
    ns.kind? i = some .package ∨ ns.kind? i = some .component := by
  obtain ⟨e, he, rfl⟩ := h.named.exists_of_lookup b id hid
  obtain ⟨built, hbuild, hsame⟩ := h.exists_sameOutline
  obtain ⟨e', he', houtline⟩ := hsame.symm.exists_get? he
  have hmirrors := (Namespace.mirrors_of_build hbuild he').sameOutline hsame
  have hqual : e'.qualName = e.qualName := congrArg Outline.qualName houtline
  have htable : e'.body.table = c.scope.declared := by
    have hscope := Namespace.scope?_of_component? hc
    rw [Namespace.scope?, he, Option.bind_some] at hscope
    have hdeclared := congrArg (fun o : Outline ↦ o.declared?.getD ∅) houtline
    exact hdeclared.trans (by rw [Entity.outline, hscope]; rfl)
  rw [hqual] at hmirrors
  refine (hmirrors.complete name i hname hi).resolve_left fun hheld ↦ ?_
  -- what is declared is in the table under its short name, which is this one
  have hentry := (hmirrors.entry i hheld).1
  have hshort : ns.shortName i = name := by
    obtain ⟨target, htarget, hchild⟩ := h.named.exists_of_lookup _ i hi
    rw [Namespace.shortName, htarget, Option.map_some, Option.getD_some, Entity.name, hchild]
    exact QualName.name_child hname
  rw [hshort, htable, hnone] at hentry
  cases hentry

/-! ### Comparison -/

/-- **All at once and one by one.** In every state of import resolution, take a module with an
export list and a name in it. All names at once leaves as many open as it does not bind. A name that
it binds is bound to the same when it is imported alone, unless there is an entity of the name
inside the module and the module imports something else under it; then it is bound to the entity. A
name that it leaves open is also left open when it is imported alone, unless there is an entity of
the name inside the module, which is then bound; the module does not declare it, so it is a module
or directory. The name of the export list itself is never bound when it is imported alone. -/
theorem listed_name_alone (h : Resolving project ns)
    (hb : ns.importSource importer path level = some b) (hid : ns.lookup b = some id)
    (hc : ns.component? id = some c) (hnames : c.exports = some names) (hname : name ∈ names) :
    let all := ofFrom ns importer (.all path level)
    let one := ofFrom ns importer (.one path level name)
    all.2 = names.countP (· ∉ all.1.map Prod.fst) ∧
    (name = exportVariable → one = ([], 0)) ∧
    (name ≠ exportVariable →
      (∀ q, (name, q) ∈ all.1 → (ns.Live (b.child name) → q = b.child name) →
        one = ([(name, q)], 0)) ∧
      (∀ q, (name, q) ∈ all.1 → ns.Live (b.child name) → q ≠ b.child name →
        one = ([(name, b.child name)], 0) ∧ c.scope.imported[name]? = some q) ∧
      (name ∉ all.1.map Prod.fst → ¬ ns.Live (b.child name) → one = ([], 1)) ∧
      (name ∉ all.1.map Prod.fst → ns.Live (b.child name) →
        one = ([(name, b.child name)], 0) ∧ name ∉ c.scope.declared ∧
        ('.' ∉ name.toList → ∀ i, ns.lookup (b.child name) = some i →
          ns.kind? i = some .package ∨ ns.kind? i = some .component))) := by
  intro all one
  have hnamed := h.named
  have hmem : ∀ {q}, (name, q) ∈ all.1 ↔ _ := mem_ofFrom_all_iff hb hid hc hnames hname
  have hopen : name ∉ all.1.map Prod.fst ↔ _ := not_mem_ofFrom_all_iff hb hid hc hnames hname
  refine ⟨count_ofFrom_all hb hid hc hnames, ?_, fun hne ↦ ?_⟩
  · rintro rfl
    exact ofFrom_one_exportVariable ns importer path level
  have hone : one = _ := ofFrom_one hb hid hc hne
  rw [hone, hopen, exported_eq_none_iff, live_iff hnamed]
  refine ⟨fun q hq hsame ↦ ?_, fun q hq hlive hdiffers ↦ ?_, fun hnone hdead ↦ ?_,
    fun hnone hlive ↦ ?_⟩
  · by_cases hlive : (ns.lookup (b.child name)).isSome
    · rw [if_pos hlive, hsame hlive]
    · -- what a module declares is there, so without an entity the name comes from its imports
      rcases exported_cases (hmem.1 hq) with himported | ⟨-, hdeclared⟩
      · rw [if_neg hlive, himported]
        rfl
      · exact absurd (eq_child_of_declared hnamed hid hc hdeclared).2 hlive
  · refine ⟨if_pos hlive, (exported_cases (hmem.1 hq)).resolve_right fun hdeclared ↦ ?_⟩
    exact hdiffers (eq_child_of_declared hnamed hid hc hdeclared.2).1
  · rw [if_neg hdead, hnone.1]
    rfl
  · refine ⟨if_pos hlive, ?_, fun hdot i hi ↦ kind_of_not_declared h hid hc hdot hnone.2 hi⟩
    rw [Std.ExtTreeMap.mem_iff_isSome_getElem?, hnone.2]
    exact Bool.false_ne_true

/-! ### A module where they differ -/

/-- A directory that declares a function and imports another under its name, imports something under
the name of the export list, and exports both and the module in it. -/
def shadowedProject : Project where
  name := "p"
  location := "p"
  entries := [
    .file markerName ("def f():0\ndef g():0\nfrom p import g as f,g as __all__\n" ++
      "__all__=['f','s','__all__']\nclass C:\n from p import *\n" ++
      "class D:\n from p import f,s,__all__\n").toUTF8,
    .file "s.py" "def h():0\n".toUTF8]
  filter := []

theorem exists_resolving_shadowedProject :
    ∃ ns c, Resolving shadowedProject ns ∧ ns.lookup ⟨"p"⟩ = some 0 ∧ ns.component? 0 = some c ∧
      c.exports = some ["f", "s", "__all__"] ∧
      ns.lookup ⟨"p.f"⟩ = some 1 ∧ ns.lookup ⟨"p.s"⟩ = some 5 ∧
      ofFrom ns 0 (.all (some "p") 0) = ([("f", ⟨"p.g"⟩), ("__all__", ⟨"p.g"⟩)], 1) ∧
      ofFrom ns 0 (.one (some "p") 0 "f") = ([("f", ⟨"p.f"⟩)], 0) ∧
      ofFrom ns 0 (.one (some "p") 0 "s") = ([("s", ⟨"p.s"⟩)], 0) ∧
      ofFrom ns 0 (.one (some "p") 0 "__all__") = ([], 0) := by
  have hread : (shadowedProject.build.toOption.map fun built ↦
      let exported := shadowedProject.run Exports.pass { ns := built }
      let ns := (shadowedProject.run pass { ns := exported.1.ns }).1.ns
      (decide (exported.2.isNone ∧ exported.1.count = 0),
        decide ((ns.component? 0).bind Component.exports = some ["f", "s", "__all__"]),
        decide ([⟨"p"⟩, ⟨"p.f"⟩, ⟨"p.s"⟩].map ns.lookup = [some 0, some 1, some 5]),
        decide ([.all (some "p") 0, .one (some "p") 0 "f", .one (some "p") 0 "s",
            .one (some "p") 0 "__all__"].map (ofFrom ns 0) =
          [([("f", ⟨"p.g"⟩), ("__all__", ⟨"p.g"⟩)], 1), ([("f", ⟨"p.f"⟩)], 0),
            ([("s", ⟨"p.s"⟩)], 0), ([], 0)]))) = some (true, true, true, true) := by
    decide +kernel
  obtain ⟨built, hbuild, hread⟩ := exists_ok_of_toOption hread
  simp only [Prod.mk.injEq, decide_eq_true_eq, List.map_cons, List.map_nil, List.cons.injEq,
    and_true] at hread
  obtain ⟨⟨hexports, hcount⟩, hlist, ⟨hp, hf, hs⟩, hall, honef, hones, honeall⟩ := hread
  obtain ⟨c, hc, hnames⟩ := Option.bind_eq_some_iff.1 hlist
  have hresolve := Project.resolve_of_count_eq_zero (Project.run_eq_of_isNone hexports) hcount
  refine ⟨_, c, ?_, hp, hc, hnames, hf, hs, hall, honef, hones, honeall⟩
  exact Project.traverse_induction (fun component file _ hp ↦ hp.pass component file)
    (.start hbuild hresolve)

/-- Of the three exported names, each is treated differently by the two statements. -/
theorem listed_names_of_shadowedProject :
    ∃ ns c, Resolving shadowedProject ns ∧ ns.importSource 0 (some "p") 0 = some ⟨"p"⟩ ∧
      ns.lookup ⟨"p"⟩ = some 0 ∧ ns.component? 0 = some c ∧
      c.exports = some ["f", "s", "__all__"] ∧
      ofFrom ns 0 (.all (some "p") 0) = ([("f", ⟨"p.g"⟩), ("__all__", ⟨"p.g"⟩)], 1) ∧
      (ns.Live ⟨"p.f"⟩ ∧ ofFrom ns 0 (.one (some "p") 0 "f") = ([("f", ⟨"p.f"⟩)], 0) ∧
        c.scope.imported["f"]? = some ⟨"p.g"⟩) ∧
      (ns.Live ⟨"p.s"⟩ ∧ ofFrom ns 0 (.one (some "p") 0 "s") = ([("s", ⟨"p.s"⟩)], 0) ∧
        (ns.kind? 5 = some .package ∨ ns.kind? 5 = some .component)) ∧
      ofFrom ns 0 (.one (some "p") 0 "__all__") = ([], 0) := by
  obtain ⟨ns, c, h, hp, hc, hnames, hf, hs, hall, -⟩ := exists_resolving_shadowedProject
  have hlivef : ns.Live ⟨"p.f"⟩ := (live_iff h.named).2 (by rw [hf]; rfl)
  have hlives : ns.Live ⟨"p.s"⟩ := (live_iff h.named).2 (by rw [hs]; rfl)
  have hb : ns.importSource 0 (some "p") 0 = some ⟨"p"⟩ := rfl
  obtain ⟨-, -, hnamef⟩ := @listed_name_alone _ _ _ _ _ _ _ _ _ "f" h hb hp hc hnames (by decide)
  obtain ⟨-, -, hnames'⟩ := @listed_name_alone _ _ _ _ _ _ _ _ _ "s" h hb hp hc hnames (by decide)
  obtain ⟨-, hlist, -⟩ :=
    @listed_name_alone _ _ _ _ _ _ _ _ _ "__all__" h hb hp hc hnames (by decide)
  rw [hall] at hnamef hnames'
  obtain ⟨hone, himported⟩ :=
    (hnamef (by decide)).2.1 ⟨"p.g"⟩ (by decide) hlivef (by decide)
  obtain ⟨hone', -, hkind⟩ := (hnames' (by decide)).2.2.2 (by decide) hlives
  exact ⟨ns, c, h, hb, hp, hc, hnames, hall, ⟨hlivef, hone, himported⟩,
    ⟨hlives, hone', hkind (by decide) 5 hs⟩, hlist rfl⟩

/-- All at once and one by one need not agree: a name that is bound may be bound to something else,
or not at all, and one that is left open may be bound. -/
theorem listed_names_differ :
    ∃ ns c names, Resolving shadowedProject ns ∧ ns.importSource 0 (some "p") 0 = some ⟨"p"⟩ ∧
      ns.lookup ⟨"p"⟩ = some 0 ∧ ns.component? 0 = some c ∧ c.exports = some names ∧
      (∃ name ∈ names, ∃ q q', q ≠ q' ∧ (name, q) ∈ (ofFrom ns 0 (.all (some "p") 0)).1 ∧
        (ofFrom ns 0 (.one (some "p") 0 name)).1 = [(name, q')]) ∧
      (∃ name ∈ names, name ∉ (ofFrom ns 0 (.all (some "p") 0)).1.map Prod.fst ∧
        ∃ q, (name, q) ∈ (ofFrom ns 0 (.one (some "p") 0 name)).1) ∧
      ∃ name ∈ names, ∃ q, (name, q) ∈ (ofFrom ns 0 (.all (some "p") 0)).1 ∧
        (ofFrom ns 0 (.one (some "p") 0 name)).1 = [] := by
  obtain ⟨ns, c, h, hp, hc, hnames, -, -, hall, honef, hones, honeall⟩ :=
    exists_resolving_shadowedProject
  refine ⟨ns, c, _, h, rfl, hp, hc, hnames, ⟨"f", by decide, ⟨"p.g"⟩, ⟨"p.f"⟩, by decide, ?_, ?_⟩,
    ⟨"s", by decide, ?_, ⟨"p.s"⟩, ?_⟩, ⟨"__all__", by decide, ⟨"p.g"⟩, ?_, ?_⟩⟩
  · rw [hall]
    decide
  · rw [honef]
  · rw [hall]
    decide
  · rw [hones]
    decide
  · rw [hall]
    decide
  · rw [honeall]

end Imports

end CodeAtlas
