import CodeAtlas.Proofs.FileTree
import CodeAtlas.Proofs.Outline
import CodeAtlas.Proofs.Repetition

/-!
# Projects of one module

The smallest projects are a root directory with nothing but a marker file in it. Their namespace is
written down in one line (`moduleNamespace`), and a pass over their files is one application of the
pass to the statements of the module (`OneModule.run_eq`), so that repeated passes are repeated
applications (`OneModule.traversals_eq`). Statements about all projects are tried out on them.

The statements are given beside the text, and that the text parses to them is checked once, so that
what is evaluated later are statements and not texts (`oneModule_singleModule`).
-/

namespace CodeAtlas

/-- A project whose only file is the marker of its root, with these statements in it. -/
structure OneModule (project : Project) (statements : List Stmt) : Prop where
  kept : project.filter.ignores [markerName] false = false
  parsed : ∃ bytes, project.entries = [.file markerName bytes] ∧
    project.parse [markerName] bytes = .ok statements

/-- The namespace of a module without its declarations. -/
def emptyModule (name : String) : Namespace where
  project := name
  nextId := 1
  entities := (∅ : Std.ExtTreeMap Id Entity).insert 0
    ⟨0, ⟨name⟩, .component { isDirectory := true }⟩
  ids := (∅ : Std.ExtTreeMap QualName Id).insert ⟨name⟩ 0

/-- The namespace of a module that declares what its statements say. -/
def moduleNamespace (name : String) (statements : List Stmt) : Namespace :=
  { (emptyModule name).declareAll 0 (Declaration.ofStmts statements) with
    sources := [⟨[markerName], 0⟩]
    root := some 0 }

/-- What some passes over the statements of a module lead to, each of which counts afresh. -/
def moduleRun (pass : Pass) (statements : List Stmt) (ns : Namespace) : Nat → Progress
  | 0 => { ns }
  | n + 1 => pass 0 statements { ns := (moduleRun pass statements ns n).ns }

theorem create_emptyModule (name : String) :
    Namespace.create { project := name } ⟨name⟩ (.component { isDirectory := true }) =
      some (0, emptyModule name) :=
  rfl

theorem tidy_emptyModule (name : String) : (emptyModule name).Tidy :=
  (Namespace.tidy_empty name).create (create_emptyModule name)

namespace OneModule

variable {project : Project} {statements : List Stmt}

/-- The file of the project has these statements. -/
theorem source_eq (h : OneModule project statements) :
    project.source [markerName] = .ok statements := by
  obtain ⟨bytes, hentries, hparse⟩ := h.parsed
  have hread : Entry.read project.entries [markerName] = .ok bytes := by
    rw [hentries]
    rfl
  rw [Project.source, hread]
  exact hparse

theorem run_eq (h : OneModule project statements) (pass : Pass) {p : Progress}
    (hsources : p.ns.sources = [⟨[markerName], 0⟩]) :
    project.run pass p = (pass 0 statements p, none) := by
  rw [Project.run, hsources, Project.traverse, h.source_eq]
  rfl

/-- Repeated passes over the file of a one-module project. -/
theorem traversals_eq (h : OneModule project statements) {pass : Pass} {ns : Namespace}
    (hpass : ∀ component file p, (pass component file p).ns.sources = p.ns.sources)
    (hsources : ns.sources = [⟨[markerName], 0⟩]) (n : Nat) :
    project.traversals pass ns n = moduleRun pass statements ns n := by
  have hrun : ∀ n, (moduleRun pass statements ns n).ns.sources = [⟨[markerName], 0⟩] := by
    intro n
    induction n with
    | zero => exact hsources
    | succ n ih => exact (hpass ..).trans ih
  induction n with
  | zero => rfl
  | succ n ih =>
    have heq := h.run_eq pass (p := { ns := (moduleRun pass statements ns n).ns }) (hrun n)
    rw [Project.traversals, ih, heq, moduleRun]

theorem directories_eq (h : OneModule project statements) :
    project.directories = [⟨[], project.entries⟩] := by
  obtain ⟨bytes, hentries, -⟩ := h.parsed
  rw [Project.directories, hentries]
  rfl

/-- The namespace that is built for a module that declares something. -/
theorem build_eq (h : OneModule project statements)
    (hdeclares : (moduleNamespace project.name statements).declares 0) :
    project.build = .ok (moduleNamespace project.name statements) := by
  obtain ⟨bytes, hentries, hparse⟩ := h.parsed
  have hlisting : Directory.listing project.filter ⟨[], project.entries⟩ =
      ⟨some bytes, [], []⟩ := by
    simp [Directory.listing, hentries, Entry.name, Entry.isDirectory, h.kept]
  have hmarker : Draft.addMarker project ⟨[], project.entries⟩ 0 { ns := emptyModule project.name }
      (some bytes) =
        .ok { ns := (emptyModule project.name).declareAll 0 (Declaration.ofStmts statements)
              sources := [⟨[markerName], 0⟩] } := by
    rw [Draft.addMarker, Draft.scan]
    dsimp only
    rw [List.nil_append, hparse]
    rfl
  have hsources :
      ((emptyModule project.name).declareAll 0 (Declaration.ofStmts statements)).sources = [] := by
    have hdeclares := Namespace.declares_declareAll (tidy_emptyModule project.name)
      (Nat.le_refl 0) (Namespace.hasEntity_create (create_emptyModule project.name))
      (Declaration.ofStmts statements)
    exact (hdeclares.extended (tidy_emptyModule project.name)).sources
  have hfinish : Draft.finish 0
      { ns := (emptyModule project.name).declareAll 0 (Declaration.ofStmts statements)
        sources := [⟨[markerName], 0⟩] } =
      ({ (emptyModule project.name).declareAll 0 (Declaration.ofStmts statements) with
          sources := [⟨[markerName], 0⟩] }, some 0) := by
    unfold Draft.finish
    dsimp only
    rw [Bool.false_or, hsources]
    exact if_pos hdeclares
  have hbuilt : Namespace.buildDirectory project { project := project.name }
      ⟨[], project.entries⟩ =
        .ok ({ (emptyModule project.name).declareAll 0 (Declaration.ofStmts statements) with
          sources := [⟨[markerName], 0⟩] }, some 0) := by
    have hcreate : Namespace.create { project := project.name } (.ofPath project.name [] none)
        (Listing.body ⟨some bytes, [], []⟩) = some (0, emptyModule project.name) := rfl
    rw [Namespace.buildDirectory, hlisting]
    dsimp only
    rw [hcreate]
    dsimp only
    rw [hmarker]
    exact congrArg Except.ok hfinish
  rw [Project.build, h.directories_eq, List.foldlM_cons, Namespace.addDirectory, hbuilt]
  rfl

end OneModule

/-! ### Projects from texts -/

/-- The project whose only file is the marker of its root, with a text in it. -/
def singleModule (name text : String) : Project :=
  { name, location := name, entries := [.file markerName text.toUTF8], filter := .ofRoot [] [] }

theorem not_ignores_marker : (Filter.ofRoot [] []).ignores [markerName] false = false := by
  decide +kernel

/-- A text that parses to statements makes a project of one module with them. -/
theorem oneModule_singleModule (name : String) {text : String} {statements : List Stmt}
    (h : Stmt.ofText? text = some statements) : OneModule (singleModule name text) statements := by
  refine ⟨?_, text.toUTF8, rfl, ?_⟩
  · dsimp only [singleModule]
    exact not_ignores_marker
  · rw [Project.parse, Entry.decode_toUTF8]
    dsimp only
    rw [h]

end CodeAtlas
