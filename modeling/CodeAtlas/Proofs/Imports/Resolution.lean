import CodeAtlas.Proofs.Exports.Frame
import CodeAtlas.Proofs.Imports.Meaning
import CodeAtlas.Proofs.Imports.Settle
import CodeAtlas.Proofs.SingleModule
import CodeAtlas.Proofs.SyntaxTrees

/-!
# Import resolution

A namespace is prepared for import resolution if its files can be used, belong to components, and no
name is imported yet; a namespace that was built and whose export lists were resolved is
(`prepared_of_resolve`). From a prepared namespace, resolution ends with exactly the importable
names bound, each to something that it refers to (`exists_outcome`).

## The outcome

`Outcome` collects what is known of the namespace at the end: it has the frame of the one at the
beginning, its tables are closed, what names are bound to is what they refer to, and what is
reported is what is open. That the bound names are the importable ones follows from this
(`Outcome.isSome_imported?_iff`).

## The order of files

Which names are importable does not depend on the order in which files are traversed
(`importable_perm_iff`), so neither do the names that are bound, nor how many requests stay open
(`Outcome.unresolved_eq`). What a name with several meanings is bound to may depend on it.

## One more traversal

A further traversal binds no new name and counts the same (`run_after_resolve`). It may bind a name
to something else. In the module of the last part two names are bound to two things each and then to
each other, and every traversal swaps them (`run_after_resolve_swaps`).
-/

namespace CodeAtlas

namespace Imports

variable {project : Project} {ns ns' : Namespace} {visits : List Visit}

/-- What import resolution may rely on. -/
structure Prepared (project : Project) (ns : Namespace) : Prop where
  readable : project.Readable ns.sources
  live : ns.SourcesLive
  noImports : ns.NoImports

/-- A namespace that was built and whose export lists were resolved is prepared. -/
theorem prepared_of_resolve {built : Namespace} {exports : Settled}
    (hbuild : project.build = .ok built)
    (hexports : project.resolve Exports.pass built = .ok (ns, exports)) :
    Prepared project ns := by
  have hsound := Namespace.sound_build hbuild
  have hsame := Exports.sameScopes_resolve hexports
  refine ⟨?_, hsame.sourcesLive hsound.sourcesLive, hsame.noImports hsound.noImports⟩
  rw [hsame.sources]
  exact Project.readable_of_resolve hexports

/-- The files of a prepared namespace may be taken in any order. -/
theorem Prepared.perm (h : Prepared project ns) {sources : List SourceFile}
    (hperm : sources.Perm ns.sources) : Prepared project { ns with sources } where
  readable f hf := h.readable f (hperm.mem_iff.1 hf)
  live f hf := h.live f (hperm.mem_iff.1 hf)
  noImports := h.noImports

/-- In a prepared namespace all scopes that are visited have tables. -/
theorem Prepared.ready (h : Prepared project ns) : Ready project ns (project.visits {} ns) where
  readable := h.readable
  visits_eq := rfl
  tables v hv := by
    obtain ⟨f, hf, hv⟩ := List.mem_flatMap.1 hv
    exact Visit.isSome_scope?_of_mem_ofFile (h.live f hf) hv

/-! ### Soundness of repeated traversals -/

/-- In tables that hold only what names refer to, a traversal binds names to nothing else. -/
theorem refers_traversed (hframe : ns'.withoutImports = ns.withoutImports)
    (h : ∀ id name q, ns'.imported? id name = some q → Refers ns visits id name q)
    {id : Id} {name : String} {q : QualName}
    (hq : (traversed visits ns').imported? id name = some q) : Refers ns visits id name q := by
  refine run_sound (fun v hv r hr q hanswer ↦ ?_) h hq
  rw [requests_congr hframe] at hr
  exact refers_of_mem_requests hv hr hanswer

/-- Repeated traversals from empty tables bind names to what they refer to, and to nothing else. -/
theorem refers_iterate (hnone : ns.NoImports) (m : Nat) {id : Id} {name : String} {q : QualName}
    (hq : ((traversed visits)^[m] ns).imported? id name = some q) :
    Refers ns visits id name q := by
  induction m generalizing id name q with
  | zero =>
    rw [Function.iterate_zero_apply, hnone id name] at hq
    cases hq
  | succ m ih =>
    rw [Function.iterate_succ_apply'] at hq
    exact refers_traversed (grows_iterate visits ns m).frame (fun _ _ _ ↦ ih) hq

/-! ### The outcome -/

/-- How import resolution of a namespace ended. -/
structure Outcome (project : Project) (ns ns' : Namespace) (settled : Settled) : Prop where
  frame : ns'.withoutImports = ns.withoutImports
  closed : Closed ns' (project.visits {} ns)
  refers : ∀ id name q, ns'.imported? id name = some q →
    Refers ns (project.visits {} ns) id name q
  unresolved : settled.unresolved = unresolved ns' (project.visits {} ns)
  iterations : settled.iterations ≤ (project.run pass { ns }).1.count + 2

/-- **Import resolution.** Imports are resolved with success where the namespace is prepared. -/
theorem exists_outcome (h : Prepared project ns) :
    ∃ ns' settled, project.resolve pass ns = .ok (ns', settled) ∧
      Outcome project ns ns' settled := by
  obtain ⟨settled, hsettles⟩ := h.ready.exists_settles
  obtain ⟨hclosed, hunresolved⟩ := h.ready.closed_of_settles hsettles
  have hiterations := hsettles.iterations_le
  refine ⟨_, settled, hsettles.resolve_eq, ?_⟩
  rw [h.ready.ns_traversals] at hclosed hunresolved ⊢
  exact ⟨(grows_iterate _ ns _).frame, hclosed, fun id name q ↦ refers_iterate h.noImports _,
    hunresolved, hiterations⟩

namespace Outcome

variable {settled : Settled}

/-- The names that are bound are those that are importable. -/
theorem isSome_imported?_iff (h : Outcome project ns ns' settled) (id : Id) (name : String) :
    (ns'.imported? id name).isSome ↔ Importable ns (project.visits {} ns) id name := by
  refine ⟨fun hs ↦ ?_, h.closed.of_importable h.frame⟩
  obtain ⟨q, hq⟩ := Option.isSome_iff_exists.1 hs
  exact (h.refers id name q hq).importable

end Outcome

/-! ### The order of files -/

section Order

variable {sources : List SourceFile}

/-- Taking the files in another order visits the same places, in another order. -/
theorem visits_perm (project : Project) (hperm : sources.Perm ns.sources) (reach : Reach) :
    (project.visits reach { ns with sources }).Perm (project.visits reach ns) := by
  have henter : Visit.enter { ns with sources } = Visit.enter ns := rfl
  unfold Project.visits
  simp only [Visit.ofFile_congr_of_enter henter]
  exact hperm.flatMap_right _

/-- Whether a name is importable depends on the statements, and not on the files they are in. -/
theorem Importable.of_sources {visits' : List Visit} (hvisits : ∀ v ∈ visits', v ∈ visits)
    {scope : Id} {name : String} (h : Importable { ns with sources } visits' scope name) :
    Importable ns visits scope name := by
  induction h with
  | component h hlookup hkind =>
    obtain ⟨v, hv, hstatement⟩ := h
    exact .component ⟨v, hvisits v hv, hstatement⟩ hlookup hkind
  | entity h hlookup =>
    obtain ⟨v, hv, hstatement⟩ := h
    exact .entity ⟨v, hvisits v hv, hstatement⟩ hlookup
  | forwarded h hlookup _ ih =>
    obtain ⟨v, hv, hstatement⟩ := h
    exact .forwarded ⟨v, hvisits v hv, hstatement⟩ hlookup ih
  | declared h hlookup hcomponent hexports hname hdeclared =>
    obtain ⟨v, hv, hstatement⟩ := h
    exact .declared ⟨v, hvisits v hv, hstatement⟩ hlookup hcomponent hexports hname hdeclared
  | reexported h hlookup hcomponent hexports hname _ ih =>
    obtain ⟨v, hv, hstatement⟩ := h
    exact .reexported ⟨v, hvisits v hv, hstatement⟩ hlookup hcomponent hexports hname ih
  | unlisted h hlookup hcomponent hexports hmember hentity hpublic =>
    obtain ⟨v, hv, hstatement⟩ := h
    exact .unlisted ⟨v, hvisits v hv, hstatement⟩ hlookup hcomponent hexports hmember hentity
      hpublic

/-- Which names are importable does not depend on the order of the files. -/
theorem importable_perm_iff (hperm : sources.Perm ns.sources) {scope : Id} {name : String} :
    Importable { ns with sources } (project.visits {} { ns with sources }) scope name ↔
      Importable ns (project.visits {} ns) scope name := by
  have hvisits := visits_perm project hperm {}
  refine ⟨.of_sources fun v ↦ hvisits.mem_iff.1, fun h ↦ ?_⟩
  have hback : Importable { { ns with sources } with sources := ns.sources }
      (project.visits {} ns) scope name := h
  exact .of_sources (fun v ↦ hvisits.mem_iff.2) hback

/-- How many requests are open depends on which names are bound, and not on what they are bound
to. -/
theorem unanswered_congr {tables tables' : Tables}
    (h : ∀ id name, (tables id name).isSome ↔ (tables' id name).isSome) (rs : List Request) :
    unanswered tables rs = unanswered tables' rs := by
  refine List.countP_congr fun r _ ↦ ?_
  have hanswer : (r.answer tables).isSome ↔ (r.answer tables').isSome := by
    rw [Request.isSome_answer_iff, Request.isSome_answer_iff]
    simp only [h]
  rw [Option.isNone_iff_eq_none, ← Option.not_isSome_iff_eq_none, hanswer,
    Option.not_isSome_iff_eq_none, Option.isNone_iff_eq_none]

/-- Resolutions of the same files in two orders leave as much open. -/
theorem Outcome.unresolved_eq {ns'' : Namespace} {settled settled' : Settled}
    (hperm : sources.Perm ns.sources) (h : Outcome project ns ns' settled)
    (h' : Outcome project { ns with sources } ns'' settled') :
    settled'.unresolved = settled.unresolved := by
  have hsame : ∀ id name, (ns''.imported? id name).isSome ↔ (ns'.imported? id name).isSome :=
    fun id name ↦ by
      rw [h.isSome_imported?_iff, h'.isSome_imported?_iff, importable_perm_iff hperm]
  have hrequests : requests ns'' = requests ns' :=
    (requests_congr h'.frame).trans (requests_congr h.frame).symm
  rw [h.unresolved, h'.unresolved, Imports.unresolved, Imports.unresolved, hrequests,
    unanswered_congr hsame]
  exact ((visits_perm project hperm {}).flatMap_right _).countP_eq _

end Order

/-! ### A module whose names swap -/

/-- Statements that bind `x` and `y`, each to two things, and then to each other. -/
def swapText : String :=
  "def f():0\nimport p as x\nfrom p import f as y\n" ++
    "from p import s as x,r as y\nfrom p import x as r,y as s\n"

/-- The statements of the module. -/
def swapStatements : List Stmt :=
  [.funcDef ⟨⟨"f", by decide⟩, [], [], [], []⟩ [.simple [.number "0" true]],
    .importModules [⟨"p", some "x"⟩],
    .importFrom ⟨some "p", 0, false, [⟨"f", some "y"⟩]⟩,
    .importFrom ⟨some "p", 0, false, [⟨"s", some "x"⟩, ⟨"r", some "y"⟩]⟩,
    .importFrom ⟨some "p", 0, false, [⟨"x", some "r"⟩, ⟨"y", some "s"⟩]⟩]

theorem ofText?_swapText : Stmt.ofText? swapText = some swapStatements := by
  decide +kernel

/-- The project of the module. -/
def swapProject : Project :=
  singleModule "p" swapText

/-- The project has one module, with these statements. -/
theorem oneModule_swapProject : OneModule swapProject swapStatements :=
  oneModule_singleModule "p" ofText?_swapText

/-- The namespace of the module after its export list was resolved. -/
def swapNamespace : Namespace :=
  (Exports.pass 0 swapStatements { ns := moduleNamespace "p" swapStatements }).ns

/-- What some traversals of the module lead to. -/
def swapRun : Nat → Progress
  | 0 => { ns := swapNamespace }
  | n + 1 => pass 0 swapStatements { ns := (swapRun n).ns }

/-- The namespace of the module before any pass. -/
theorem build_swapProject : swapProject.build = .ok (moduleNamespace "p" swapStatements) :=
  oneModule_swapProject.build_eq (by decide +kernel)

/-- The module has no export list, so resolving exports takes one traversal. -/
theorem resolve_exports_swapProject :
    swapProject.resolve Exports.pass (moduleNamespace "p" swapStatements) =
      .ok (swapNamespace, ⟨1, 0⟩) :=
  Project.resolve_of_count_eq_zero (oneModule_swapProject.run_eq Exports.pass rfl)
    (by decide +kernel)

theorem sources_swapRun (n : Nat) : (swapRun n).ns.sources = [⟨[markerName], 0⟩] := by
  induction n with
  | zero => rfl
  | succ n ih =>
    have hframe := (grows_run (Visit.ofFile (swapRun n).ns {} 0 swapStatements)
      { ns := (swapRun n).ns }).frame
    exact (congrArg Namespace.sources hframe).trans ih

/-- A further traversal of the module. -/
theorem run_swapRun (n : Nat) :
    swapProject.run pass { ns := (swapRun n).ns } = (swapRun (n + 1), none) :=
  oneModule_swapProject.run_eq pass (sources_swapRun n)

/-- The traversals of the module, one after another. -/
theorem traversals_swapProject (n : Nat) :
    swapProject.traversals pass swapNamespace n = swapRun n := by
  induction n with
  | zero => rfl
  | succ n ih => rw [Project.traversals, ih, run_swapRun]

/-- The counts are two, zero and zero, so the third traversal is the last. -/
theorem resolve_swapProject : swapProject.resolve pass swapNamespace =
    .ok ((swapRun 3).ns, ⟨3, 0⟩) := by
  have hfirst : (swapRun 1).count = 2 := by decide +kernel
  have hsecond : (swapRun 2).count = 0 := by decide +kernel
  have hthird : (swapRun 3).count = 0 := by decide +kernel
  have hrun := run_swapRun 0
  rw [show (swapRun 0).ns = swapNamespace from rfl] at hrun
  rw [Project.resolve, Project.settle, Project.settleFrom, hrun]
  dsimp only
  rw [hfirst, if_neg (by decide), if_neg (by decide), Project.settleFrom, run_swapRun]
  dsimp only
  rw [hsecond, if_neg (by decide), if_pos (by decide), Project.settleFrom, run_swapRun]
  dsimp only
  rw [hthird]
  rfl

/-! ### Main results -/

variable {built : Namespace} {exports settled : Settled}

/-- **Complete import resolution.** After a namespace was built and its export lists were resolved,
imports are resolved with success, whatever the order of the files. The names that are bound in a
scope are those that are importable there, and how many requests stay open does not depend on the
order. The files are traversed at most twice more than the first traversal left requests open. -/
theorem resolve_binds_importable (hbuild : project.build = .ok built)
    (hexports : project.resolve Exports.pass built = .ok (ns, exports)) :
    ns.NoImports ∧ ∃ unresolved, ∀ sources : List SourceFile, sources.Perm ns.sources →
      ∃ ns' iterations,
        project.resolve pass { ns with sources } = .ok (ns', ⟨iterations, unresolved⟩) ∧
        (∀ scope name, (ns'.imported? scope name).isSome ↔
          Importable ns (project.visits {} ns) scope name) ∧
        iterations ≤ (project.run pass { ns := { ns with sources } }).1.count + 2 := by
  have hprepared := prepared_of_resolve hbuild hexports
  obtain ⟨_, ⟨_, unresolved⟩, -, houtcome⟩ := exists_outcome hprepared
  refine ⟨hprepared.noImports, unresolved, fun sources hperm ↦ ?_⟩
  obtain ⟨ns', ⟨iterations, unresolved'⟩, hresolve, houtcome'⟩ :=
    exists_outcome (hprepared.perm hperm)
  cases houtcome.unresolved_eq hperm houtcome'
  refine ⟨ns', iterations, hresolve, fun scope name ↦ ?_, houtcome'.iterations⟩
  rw [houtcome'.isSome_imported?_iff, importable_perm_iff hperm]

/-- In the module whose names swap four names are importable, and these are bound. The name of the
function is not, since the module imports it under another name only. -/
theorem resolve_swapProject_binds_importable :
    swapProject.build = .ok (moduleNamespace "p" swapStatements) ∧
      swapProject.resolve Exports.pass (moduleNamespace "p" swapStatements) =
        .ok (swapNamespace, ⟨1, 0⟩) ∧
      swapProject.resolve pass swapNamespace = .ok ((swapRun 3).ns, ⟨3, 0⟩) ∧
      (∀ name ∈ ["x", "y", "r", "s"], ((swapRun 3).ns.imported? 0 name).isSome ∧
        Importable swapNamespace (swapProject.visits {} swapNamespace) 0 name) ∧
      (swapRun 3).ns.imported? 0 "f" = none ∧
      ¬ Importable swapNamespace (swapProject.visits {} swapNamespace) 0 "f" := by
  refine ⟨build_swapProject, resolve_exports_swapProject, resolve_swapProject, ?_⟩
  obtain ⟨-, unresolved, horder⟩ :=
    resolve_binds_importable build_swapProject resolve_exports_swapProject
  obtain ⟨ns', iterations, hresolve, hiff, -⟩ := horder swapNamespace.sources (.refl _)
  have hns : ns' = (swapRun 3).ns :=
    congrArg Prod.fst (Except.ok.inj (hresolve.symm.trans resolve_swapProject))
  rw [hns] at hiff
  have hbound : ∀ name ∈ ["x", "y", "r", "s"], ((swapRun 3).ns.imported? 0 name).isSome := by
    decide +kernel
  have hfree : (swapRun 3).ns.imported? 0 "f" = none := by decide +kernel
  refine ⟨fun name hname ↦ ⟨hbound name hname, (hiff 0 name).1 (hbound name hname)⟩, hfree, ?_⟩
  rw [← hiff, hfree]
  exact Bool.false_ne_true

/-- **One more traversal.** After imports were resolved, a further traversal binds no new name and
counts what was reported. What a name is bound to before or after it is something the name refers
to; so where a name refers to one thing only it stays bound to that, and where all names do,
nothing changes. -/
theorem run_after_resolve (hbuild : project.build = .ok built)
    (hexports : project.resolve Exports.pass built = .ok (ns, exports))
    (himports : project.resolve pass ns = .ok (ns', settled)) :
    ∃ again : Namespace,
      project.run pass { ns := ns' } = ({ ns := again, count := settled.unresolved }, none) ∧
      (∀ scope name, (again.imported? scope name).isSome ↔ (ns'.imported? scope name).isSome) ∧
      (∀ scope name q, ns'.imported? scope name = some q ∨ again.imported? scope name = some q →
        Refers ns (project.visits {} ns) scope name q) ∧
      (∀ scope name, (∀ q q', Refers ns (project.visits {} ns) scope name q →
          Refers ns (project.visits {} ns) scope name q' → q = q') →
        again.imported? scope name = ns'.imported? scope name) ∧
      ((∀ scope name q q', Refers ns (project.visits {} ns) scope name q →
          Refers ns (project.visits {} ns) scope name q' → q = q') → again = ns') := by
  have hprepared := prepared_of_resolve hbuild hexports
  obtain ⟨_, _, hresolve, houtcome⟩ := exists_outcome hprepared
  cases hresolve.symm.trans himports
  have hready := hprepared.ready.congr houtcome.frame
  have hrefers : ∀ scope name q,
      (traversed (project.visits {} ns) ns').imported? scope name = some q →
        Refers ns (project.visits {} ns) scope name q :=
    fun _ _ _ ↦ refers_traversed houtcome.frame houtcome.refers
  have hkeys : ∀ scope name, ((traversed (project.visits {} ns) ns').imported? scope name).isSome ↔
      (ns'.imported? scope name).isSome :=
    fun _ _ ↦ isSome_imported?_run_iff houtcome.closed
  -- a name that is bound before and after is bound to something it refers to, both times
  have hvalue : ∀ scope name, (∀ q q', Refers ns (project.visits {} ns) scope name q →
        Refers ns (project.visits {} ns) scope name q' → q = q') →
      (traversed (project.visits {} ns) ns').imported? scope name = ns'.imported? scope name := by
    intro scope name hone
    cases hbefore : ns'.imported? scope name with
    | none =>
      rw [← Option.not_isSome_iff_eq_none, hkeys, hbefore]
      exact Bool.false_ne_true
    | some q =>
      obtain ⟨q', hafter⟩ :=
        Option.isSome_iff_exists.1 ((hkeys scope name).2 (by rw [hbefore]; rfl))
      have heq := hone q' q (hrefers scope name q' hafter) (houtcome.refers scope name q hbefore)
      rw [hafter, heq]
  refine ⟨traversed (project.visits {} ns) ns', ?_, hkeys, ?_, hvalue, fun hone ↦ ?_⟩
  · rw [run_pass hready.readable, hready.visits_eq, houtcome.unresolved,
      ← count_run_of_closed houtcome.closed]
    rfl
  · rintro scope name q (hq | hq)
    · exact houtcome.refers scope name q hq
    · exact hrefers scope name q hq
  · exact Namespace.ext_imported (grows_traversed _ ns').frame fun scope name ↦
      hvalue scope name (hone scope name)

/-- After imports of the module were resolved, a further traversal counts no open request. -/
theorem run_after_resolve_swapProject :
    swapProject.build = .ok (moduleNamespace "p" swapStatements) ∧
      swapProject.resolve Exports.pass (moduleNamespace "p" swapStatements) =
        .ok (swapNamespace, ⟨1, 0⟩) ∧
      swapProject.resolve pass swapNamespace = .ok ((swapRun 3).ns, ⟨3, 0⟩) ∧
      ∃ again : Namespace,
        swapProject.run pass { ns := (swapRun 3).ns } = ({ ns := again }, none) ∧
        (∀ scope name, (again.imported? scope name).isSome ↔
          ((swapRun 3).ns.imported? scope name).isSome) ∧
        ∀ scope name q,
          (swapRun 3).ns.imported? scope name = some q ∨ again.imported? scope name = some q →
            Refers swapNamespace (swapProject.visits {} swapNamespace) scope name q := by
  refine ⟨build_swapProject, resolve_exports_swapProject, resolve_swapProject, ?_⟩
  obtain ⟨again, hrun, hkeys, hrefers, -⟩ :=
    run_after_resolve build_swapProject resolve_exports_swapProject resolve_swapProject
  exact ⟨again, hrun, hkeys, hrefers⟩

/-- What names are bound to need not have settled when the counts have: here a further traversal
binds `x` to something else. -/
theorem run_after_resolve_swaps :
    swapProject.build = .ok (moduleNamespace "p" swapStatements) ∧
      swapProject.resolve Exports.pass (moduleNamespace "p" swapStatements) =
        .ok (swapNamespace, ⟨1, 0⟩) ∧
      swapProject.resolve pass swapNamespace = .ok ((swapRun 3).ns, ⟨3, 0⟩) ∧
      (swapProject.run pass { ns := (swapRun 3).ns }).1.ns.imported? 0 "x" ≠
        (swapRun 3).ns.imported? 0 "x" := by
  refine ⟨build_swapProject, resolve_exports_swapProject, resolve_swapProject, ?_⟩
  have hbefore : (swapRun 3).ns.imported? 0 "x" = some ⟨"p"⟩ := by decide +kernel
  have hafter : (swapRun 4).ns.imported? 0 "x" = some ⟨"p.f"⟩ := by decide +kernel
  rw [run_swapRun, hbefore, hafter]
  decide

end Imports

end CodeAtlas
