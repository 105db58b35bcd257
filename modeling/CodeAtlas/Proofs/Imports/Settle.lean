import Mathlib.Logic.Function.Iterate
import CodeAtlas.Proofs.Imports.Traversal
import CodeAtlas.Proofs.Repetition

/-!
# Repeating the traversal

The traversal is repeated until it counts as many open requests as the time before. This module is
about the repetition, and about the tables that it leaves.

## The loop ends

What was counted last bounds what is open now, which bounds what will be counted next
(`count_traversed_le`); so the counts never rise after the first, and the loop ends
(`Steady.exists_settles`). This needs nothing but files that can be used (`Steady`), so it is the
same after passes over other files and from tables that are not empty.

## What it leaves

Two equal counts squeeze what is open between them. If all scopes that are visited have tables
(`Ready`), these are closed then, and what is open in them is what is reported
(`Ready.closed_of_settles`).

## The pass and the visits

The pass goes through files, and a traversal through visits. Since the visits depend on the frame
only, which no statement changes, folding the pass over files is folding the statement over the
visits of all files, as they are before the first traversal (`foldl_pass`). So the state after `n`
traversals of the pass is the `n`-th iterate of one function (`Steady.ns_traversals`).
-/

namespace CodeAtlas

namespace Imports

variable {project : Project} {ns ns' : Namespace}

/-! ### The pass is a traversal of visits -/

/-- The visits of a project depend on the frame only. -/
theorem visits_congr (h : ns'.withoutImports = ns.withoutImports) (reach : Reach) :
    project.visits reach ns' = project.visits reach ns := by
  have hsources : ns'.withoutImports.sources = ns.withoutImports.sources := by rw [h]
  simp only [Namespace.sources_withoutImports] at hsources
  unfold Project.visits
  rw [hsources]
  exact congrArg (List.flatMap · ns.sources) (funext fun f ↦ Visit.ofFile_congr h ..)

/-- Folding the pass over files is folding the statement over the visits of all files. -/
theorem foldl_pass (files : List SourceFile) {p : Progress}
    (h : p.ns.withoutImports = ns.withoutImports) :
    files.foldl (fun p f ↦ pass f.component (project.statements f.path) p) p =
      run (files.flatMap fun f ↦
        Visit.ofFile ns {} f.component (project.statements f.path)) p := by
  induction files generalizing p with
  | nil => rfl
  | cons f rest ih =>
    have hpass : pass f.component (project.statements f.path) p =
        run (Visit.ofFile ns {} f.component (project.statements f.path)) p := by
      rw [pass, Visit.ofFile_congr h]
      rfl
    rw [List.foldl_cons, hpass, ih ((grows_run _ p).frame.trans h), List.flatMap_cons]
    unfold run
    rw [List.foldl_append]

/-- A traversal of the pass is one of the visits, if all files can be used. -/
theorem run_pass (hread : project.Readable ns.sources) (count : Nat) :
    project.run pass { ns, count } = (run (project.visits {} ns) { ns, count }, none) := by
  unfold Project.run
  rw [Project.traverse_eq_foldl hread, foldl_pass _ rfl]
  rfl

/-! ### The loop -/

/-- The namespace after a traversal. -/
def traversed (visits : List Visit) (ns : Namespace) : Namespace :=
  (run visits { ns }).ns

/-- A traversal only adds names to the tables. -/
theorem grows_traversed (visits : List Visit) (ns : Namespace) : Grows ns (traversed visits ns) :=
  grows_run visits { ns }

/-- Closed tables have as many open requests after a traversal as before. -/
theorem unresolved_traversed {visits : List Visit} (hclosed : Closed ns visits) :
    unresolved (traversed visits ns) visits = unresolved ns visits := by
  have hgrow := grows_traversed visits ns
  have hback : Grows (traversed visits ns) ns :=
    ⟨hgrow.frame.symm, fun _ _ ↦ (isSome_imported?_run_iff hclosed).1⟩
  exact Nat.le_antisymm (hgrow.unresolved_le visits) (hback.unresolved_le visits)

/-- A traversal of closed tables counts what is open in them. -/
theorem count_run_of_closed {visits : List Visit} (hclosed : Closed ns visits) :
    (run visits { ns }).count = unresolved ns visits := by
  have hle := count_le_unresolved visits { ns }
  have hge := unresolved_le_count visits { ns }
  have hsame := unresolved_traversed hclosed
  unfold traversed at hsame
  simp only [Nat.zero_add] at hle hge
  omega

/-- What makes a repeated traversal one of visits, all of it read off the frame: the files can be
used, and these are the visits to them. -/
structure Steady (project : Project) (ns : Namespace) (visits : List Visit) : Prop where
  readable : project.Readable ns.sources
  visits_eq : project.visits {} ns = visits

/-- What the outcome of a repeated traversal depends on besides: the scopes at the visits have
tables. -/
structure Ready (project : Project) (ns : Namespace) (visits : List Visit) : Prop
    extends Steady project ns visits where
  tables : HaveTables ns visits

/-- What makes a repeated traversal one of visits is read off the frame. -/
theorem Steady.congr {visits : List Visit} (h : Steady project ns visits)
    (hframe : ns'.withoutImports = ns.withoutImports) : Steady project ns' visits where
  readable := by
    have hsources : ns'.withoutImports.sources = ns.withoutImports.sources := by rw [hframe]
    exact (show ns'.sources = ns.sources from hsources) ▸ h.readable
  visits_eq := (visits_congr hframe {}).trans h.visits_eq

/-- Whether a namespace is ready is read off the frame. -/
theorem Ready.congr {visits : List Visit} (h : Ready project ns visits)
    (hframe : ns'.withoutImports = ns.withoutImports) : Ready project ns' visits :=
  ⟨h.toSteady.congr hframe, h.tables.congr hframe⟩

/-- Repeated traversals only add names to the tables. -/
theorem grows_iterate (visits : List Visit) (ns : Namespace) (n : Nat) :
    Grows ns ((traversed visits)^[n] ns) := by
  induction n with
  | zero => exact .refl ns
  | succ n ih =>
    rw [Function.iterate_succ_apply']
    exact ih.trans (grows_traversed visits _)

theorem Steady.iterate {visits : List Visit} (h : Steady project ns visits) (n : Nat) :
    Steady project ((traversed visits)^[n] ns) visits :=
  h.congr (grows_iterate visits ns n).frame

/-- A traversal of the pass is one of the visits. -/
theorem Steady.run_eq {visits : List Visit} (h : Steady project ns visits) :
    project.run pass { ns } = (run visits { ns }, none) := by
  rw [run_pass h.readable, h.visits_eq]

/-- The traversals of the pass are those of the visits. -/
theorem Steady.ns_traversals {visits : List Visit} (h : Steady project ns visits) (n : Nat) :
    (project.traversals pass ns n).ns = (traversed visits)^[n] ns := by
  induction n with
  | zero => rfl
  | succ n ih =>
    rw [Project.traversals, ih, (h.iterate n).run_eq, Function.iterate_succ_apply']
    rfl

theorem Steady.traversals_succ {visits : List Visit} (h : Steady project ns visits) (n : Nat) :
    project.traversals pass ns (n + 1) = run visits { ns := (traversed visits)^[n] ns } := by
  rw [Project.traversals, h.ns_traversals, (h.iterate n).run_eq]

/-- What was counted last bounds what is open now, and this bounds what is counted next. -/
theorem count_traversed_le (visits : List Visit) (ns : Namespace) :
    (run visits { ns := traversed visits ns }).count ≤
        unresolved (traversed visits ns) visits ∧
      unresolved (traversed visits ns) visits ≤ (run visits { ns }).count := by
  have hcount := count_le_unresolved visits { ns := traversed visits ns }
  have hopen : 0 + unresolved (traversed visits ns) visits ≤ _ := unresolved_le_count visits { ns }
  simp only [Nat.zero_add] at hcount hopen
  exact ⟨hcount, hopen⟩

/-- **Counts never rise**, whatever was imported before. -/
theorem Steady.count_traversals_le {visits : List Visit} (h : Steady project ns visits) (n : Nat) :
    (project.traversals pass ns (n + 2)).count ≤ (project.traversals pass ns (n + 1)).count := by
  rw [h.traversals_succ, h.traversals_succ, Function.iterate_succ_apply']
  obtain ⟨hcount, hopen⟩ := count_traversed_le visits ((traversed visits)^[n] ns)
  exact Nat.le_trans hcount hopen

/-- **Import resolution ends.** -/
theorem Steady.exists_settles {visits : List Visit} (h : Steady project ns visits) :
    ∃ settled, project.Settles pass ns settled := by
  refine Project.exists_settles (fun n ↦ ?_) h.count_traversals_le
  rw [h.ns_traversals, (h.iterate n).run_eq]

/-- The scopes at the visits have tables before each traversal. -/
theorem Ready.tables_iterate {visits : List Visit} (h : Ready project ns visits) (n : Nat) :
    HaveTables ((traversed visits)^[n] ns) visits :=
  h.tables.congr (grows_iterate visits ns n).frame

/-- Repeated traversals leave closed tables, and what is open in them is reported. -/
theorem Ready.closed_of_settles {visits : List Visit} {settled : Settled}
    (h : Ready project ns visits) (hsettles : project.Settles pass ns settled) :
    Closed (project.traversals pass ns settled.iterations).ns visits ∧
      settled.unresolved =
        unresolved (project.traversals pass ns settled.iterations).ns visits := by
  obtain ⟨iterations, _⟩ := settled
  obtain ⟨n, rfl⟩ : ∃ n, iterations = n + 1 :=
    Nat.exists_eq_succ_of_ne_zero (Nat.ne_of_gt hsettles.pos)
  have hcount : (run visits { ns := (traversed visits)^[n] ns }).count =
      unresolved (run visits { ns := (traversed visits)^[n] ns }).ns visits := by
    have hrepeats := hsettles.repeats
    have hlast : 0 + unresolved _ visits ≤ _ :=
      unresolved_le_count visits { ns := (traversed visits)^[n] ns }
    rw [h.traversals_succ] at hrepeats
    cases n with
    | zero =>
      -- nothing was counted, so nothing is open
      have hzero : (run visits { ns }).count = 0 := hrepeats
      dsimp only [Function.iterate_zero, id] at hlast ⊢
      omega
    | succ n =>
      -- what is open before the last traversal lies between two equal counts, so the tables were
      -- closed then
      rw [Nat.add_sub_cancel, h.traversals_succ, Function.iterate_succ_apply'] at hrepeats
      rw [Function.iterate_succ_apply'] at hlast ⊢
      obtain ⟨hle, hopen⟩ := count_traversed_le visits ((traversed visits)^[n] ns)
      have hclosed : Closed (traversed visits ((traversed visits)^[n] ns)) visits := by
        refine closed_of_count_eq (h.tables_iterate n) ?_
        show _ = 0 + unresolved (traversed visits ((traversed visits)^[n] ns)) visits
        omega
      have hsame := unresolved_traversed hclosed
      rw [traversed] at hsame
      omega
  have hunresolved := hsettles.unresolved
  rw [h.traversals_succ] at hunresolved ⊢
  refine ⟨closed_of_count_eq (h.tables_iterate n) ?_, hunresolved.trans hcount⟩
  rw [hcount, Nat.zero_add]

end Imports

end CodeAtlas
