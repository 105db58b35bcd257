import CodeAtlas.Analysis

/-!
# Passes over source files

A pass over the files of a namespace fails exactly where a file cannot be used, whatever the pass
does (`traverse_snd_eq_none_iff`). Where all files can be used it is a fold over their statements
(`traverse_eq_foldl`), so that a statement about a pass is one about folds.

## Induction

What the pass keeps in each file is kept by one traversal (`traverse_induction`), whether it fails
or not, by repeated ones (`settleFrom_induction`), and by resolving (`resolve_induction`). These
three are how invariants of a pass are carried from a file to a project, so that the traversal and
the loop around it are not opened again.

## Repetition

A pass that leaves nothing unresolved is not repeated (`resolve_of_count_eq_zero`), which is how
most concrete projects are resolved. In general the loop is the subject of
`CodeAtlas.Proofs.Repetition`.
-/

namespace CodeAtlas

namespace Project

variable (project : Project)

/-- The statements of the source file at a path; none if it cannot be used. -/
def statements (path : Path) : List Stmt :=
  match project.source path with
  | .ok file => file
  | .error _ => []

/-- All files of a list can be used. -/
def Readable (files : List SourceFile) : Prop :=
  ∀ f ∈ files, ∃ file, project.source f.path = .ok file

/-- What a pass of some reach visits in the source files of a namespace. -/
def visits (reach : Reach) (ns : Namespace) : List Visit :=
  ns.sources.flatMap fun f ↦ Visit.ofFile ns reach f.component (project.statements f.path)

variable {project} {pass : Pass} {files : List SourceFile} {p : Progress}

/-- A traversal succeeds exactly if all files can be used. -/
theorem traverse_snd_eq_none_iff (pass : Pass) (p : Progress) :
    (project.traverse pass files p).2 = none ↔ project.Readable files := by
  induction files generalizing p with
  | nil => exact ⟨fun _ f hf ↦ absurd hf List.not_mem_nil, fun _ ↦ rfl⟩
  | cons f rest ih =>
    unfold traverse
    cases hf : project.source f.path with
    | error failure =>
      simp only [reduceCtorEq, false_iff]
      intro h
      obtain ⟨file, hfile⟩ := h f List.mem_cons_self
      rw [hf] at hfile
      cases hfile
    | ok file =>
      refine (ih _).trans ⟨fun h g hg ↦ ?_, fun h g hg ↦ h g (List.mem_cons_of_mem _ hg)⟩
      rcases List.mem_cons.1 hg with rfl | hg
      · exact ⟨file, hf⟩
      · exact h g hg

/-- Where all files can be used, a traversal is a fold over their statements. -/
theorem traverse_eq_foldl (h : project.Readable files) :
    project.traverse pass files p =
      (files.foldl (fun p f ↦ pass f.component (project.statements f.path) p) p, none) := by
  induction files generalizing p with
  | nil => rfl
  | cons f rest ih =>
    obtain ⟨file, hfile⟩ := h f List.mem_cons_self
    have hstatements : project.statements f.path = file := by rw [statements, hfile]
    rw [traverse, hfile, List.foldl_cons, hstatements]
    exact ih fun g hg ↦ h g (List.mem_cons_of_mem _ hg)

/-- What the pass keeps in each file, a traversal keeps. -/
theorem traverse_induction {holds : Namespace → Prop}
    (hpass : ∀ component file (p : Progress), holds p.ns → holds (pass component file p).ns)
    (h : holds p.ns) : holds (project.traverse pass files p).1.ns := by
  induction files generalizing p with
  | nil => exact h
  | cons f rest ih =>
    unfold traverse
    cases project.source f.path with
    | error failure => exact h
    | ok file => exact ih (hpass f.component file p h)

/-- What the pass keeps in each file, its repetition keeps. -/
theorem settleFrom_induction {holds : Namespace → Prop}
    (hpass : ∀ component file (p : Progress), holds p.ns → holds (pass component file p).ns)
    {rises previous iterations : Nat} {ns : Namespace} (h : holds ns) :
    holds (project.settleFrom pass rises previous iterations ns).1.ns := by
  have hrun : ∀ {ns : Namespace} {result : Progress × Option Failure},
      project.run pass { ns } = result → holds ns → holds result.1.ns := by
    rintro ns _ rfl h
    exact traverse_induction hpass h
  fun_induction settleFrom project pass rises previous iterations ns with
  | case1 _ _ _ _ _ _ hresult => exact hrun hresult h
  | case2 _ _ _ _ hresult => exact hrun hresult h
  | case3 _ _ _ _ _ hresult _ _ _ ih => exact ih (hrun hresult h)
  | case4 _ _ _ _ hresult => exact hrun hresult h
  | case5 _ _ _ _ hresult _ _ _ _ ih => exact ih (hrun hresult h)

/-- Resolving succeeds if the repetition of the pass does, with its namespace. -/
theorem resolve_eq_ok_iff {ns ns' : Namespace} {settled : Settled} :
    project.resolve pass ns = .ok (ns', settled) ↔
      ∃ p : Progress, p.ns = ns' ∧ project.settle pass ns = (p, .ok settled) := by
  unfold resolve
  rcases project.settle pass ns with ⟨p, failure | result⟩
  · refine ⟨fun h ↦ ?_, fun ⟨_, _, h⟩ ↦ ?_⟩ <;> cases h
  · refine ⟨fun h ↦ ?_, fun ⟨p', hp', h⟩ ↦ ?_⟩
    · cases h
      exact ⟨p, rfl, rfl⟩
    · cases h
      rw [← hp']
      rfl

/-- What the pass keeps in each file is kept by resolving. -/
theorem resolve_induction (holds : Namespace → Prop)
    (hpass : ∀ component file (p : Progress), holds p.ns → holds (pass component file p).ns)
    {ns ns' : Namespace} {settled : Settled} (h : holds ns)
    (hok : project.resolve pass ns = .ok (ns', settled)) : holds ns' := by
  obtain ⟨p, rfl, hsettle⟩ := resolve_eq_ok_iff.1 hok
  have hkept : holds (project.settle pass ns).1.ns := settleFrom_induction hpass h
  rw [hsettle] at hkept
  exact hkept

/-- A pass that was repeated with success could use all files. -/
theorem readable_of_resolve {ns ns' : Namespace} {settled : Settled}
    (h : project.resolve pass ns = .ok (ns', settled)) : project.Readable ns.sources := by
  obtain ⟨p, -, hsettle⟩ := resolve_eq_ok_iff.1 h
  rw [← traverse_snd_eq_none_iff pass { ns }]
  show (project.run pass { ns }).2 = none
  rw [settle, settleFrom] at hsettle
  rcases hrun : project.run pass { ns } with ⟨progress, - | failure⟩
  · rfl
  · rw [hrun] at hsettle
    cases hsettle

/-- A pass that leaves nothing unresolved is not repeated. -/
theorem resolve_of_count_eq_zero {ns : Namespace} {p : Progress}
    (hrun : project.run pass { ns } = (p, none)) (hcount : p.count = 0) :
    project.resolve pass ns = .ok (p.ns, ⟨1, 0⟩) := by
  rw [resolve, settle, settleFrom, hrun]
  dsimp only
  rw [if_pos hcount]
  rfl

end Project

end CodeAtlas
