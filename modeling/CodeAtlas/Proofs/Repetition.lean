import CodeAtlas.Proofs.SourceFiles

/-!
# Repeating a pass until its count settles

A pass is repeated until it counts as many unresolved references as the time before, where the first
count is compared with zero. As it is meant the loop has no other end, apart from a file that cannot
be used (`SettleLoop`). As it is defined it also gives up when counts have risen too often.

## The bound

The bounded loop runs as the unbounded one does wherever counts do not rise from the second
traversal on (`settleLoop_settle`). That they do not is a property of each pass, and holds in all
namespaces that passes lead to, also while files change. Since the unbounded loop has one result at
most (`SettleLoop.unique`), its result is the one of the bounded loop.

## Settling

In a namespace that was just built, counts do not even rise from the first traversal on. As long as
the loop goes on they fall, and they cannot fall more often than the first of them says
(`exists_settles`). So the loop ends for the reason it should, which is stated of the sequence of
traversals (`Settles`) and not of the loop.
-/

namespace CodeAtlas

namespace Project

variable {project : Project} {pass : Pass} {ns : Namespace}

/-- What a number of traversals lead to, each of which counts afresh. -/
def traversals (project : Project) (pass : Pass) (ns : Namespace) : Nat → Progress
  | 0 => { ns }
  | n + 1 => (project.run pass { ns := (traversals project pass ns n).ns }).1

/-- The repetition of a pass from a namespace ends well, and how: no traversal fails, counts never
rise from the first on, and the loop ends with the first traversal that counts as many as the one
before (`repeats`, `first`), not by giving up. -/
structure Settles (project : Project) (pass : Pass) (ns : Namespace) (settled : Settled) :
    Prop where
  succeeds : ∀ n, (project.run pass { ns := (project.traversals pass ns n).ns }).2 = none
  count_le : ∀ n, (project.traversals pass ns (n + 2)).count ≤
    (project.traversals pass ns (n + 1)).count
  result : project.settle pass ns = (project.traversals pass ns settled.iterations, .ok settled)
  unresolved : settled.unresolved = (project.traversals pass ns settled.iterations).count
  pos : 0 < settled.iterations
  iterations_le : settled.iterations ≤ (project.traversals pass ns 1).count + 2
  repeats : (project.traversals pass ns settled.iterations).count =
    (project.traversals pass ns (settled.iterations - 1)).count
  first : ∀ n, n + 1 < settled.iterations →
    (project.traversals pass ns (n + 1)).count ≠ (project.traversals pass ns n).count

/-! ### The loop without a bound -/

/-- The repetition as it is meant, without a bound on how often counts rise: the pass runs until it
counts as many as the time before, which is `previous`, or fails. `iterations` is how often it ran
before. -/
inductive SettleLoop (project : Project) (pass : Pass) :
    (previous iterations : Nat) → Namespace → Progress × Except Failure Settled → Prop
  /-- A file cannot be used. -/
  | fails {previous iterations : Nat} {ns : Namespace} {progress : Progress} {failure : Failure}
      (hrun : project.run pass { ns } = (progress, some failure)) :
      SettleLoop project pass previous iterations ns (progress, .error failure)
  /-- The pass counts as many as the time before. -/
  | ends {previous iterations : Nat} {ns : Namespace} {progress : Progress}
      (hrun : project.run pass { ns } = (progress, none)) (hcount : progress.count = previous) :
      SettleLoop project pass previous iterations ns (progress, .ok ⟨iterations + 1, previous⟩)
  /-- It counts more or less, and is repeated. -/
  | goesOn {previous iterations : Nat} {ns : Namespace} {progress : Progress}
      {result : Progress × Except Failure Settled}
      (hrun : project.run pass { ns } = (progress, none)) (hne : progress.count ≠ previous)
      (hrest : SettleLoop project pass progress.count (iterations + 1) progress.ns result) :
      SettleLoop project pass previous iterations ns result

/-- The loop has one result at most. -/
theorem SettleLoop.unique {previous iterations : Nat}
    {result result' : Progress × Except Failure Settled}
    (h : project.SettleLoop pass previous iterations ns result)
    (h' : project.SettleLoop pass previous iterations ns result') : result = result' := by
  induction h with
  | fails hrun =>
    cases h' with
    | fails hrun' =>
      cases hrun.symm.trans hrun'
      rfl
    | ends hrun' => cases hrun.symm.trans hrun'
    | goesOn hrun' => cases hrun.symm.trans hrun'
  | ends hrun hcount =>
    cases h' with
    | fails hrun' => cases hrun.symm.trans hrun'
    | ends hrun' =>
      cases hrun.symm.trans hrun'
      rfl
    | goesOn hrun' hne =>
      cases hrun.symm.trans hrun'
      exact absurd hcount hne
  | goesOn hrun hne _ ih =>
    cases h' with
    | fails hrun' => cases hrun.symm.trans hrun'
    | ends hrun' hcount =>
      cases hrun.symm.trans hrun'
      exact absurd hcount hne
    | goesOn hrun' _ hrest =>
      cases hrun.symm.trans hrun'
      exact ih hrest

/-! ### Repetitions that succeed -/

section Succeeds

variable (hsucceeds : ∀ n, (project.run pass { ns := (project.traversals pass ns n).ns }).2 = none)

include hsucceeds

theorem run_traversals (n : Nat) :
    project.run pass { ns := (project.traversals pass ns n).ns } =
      (project.traversals pass ns (n + 1), none) :=
  Prod.ext rfl (hsucceeds n)

/-- The loop seen as traversals: it ends with the first that counts as many as the one before. -/
theorem SettleLoop.exists_repeat {previous n : Nat} {current : Namespace}
    {result : Progress × Except Failure Settled}
    (h : project.SettleLoop pass previous n current result)
    (hcurrent : current = (project.traversals pass ns n).ns)
    (hprevious : (project.traversals pass ns n).count = previous) :
    ∃ m, n ≤ m ∧
      (project.traversals pass ns (m + 1)).count = (project.traversals pass ns m).count ∧
      (∀ l, n ≤ l → l < m →
        (project.traversals pass ns (l + 1)).count ≠ (project.traversals pass ns l).count) ∧
      result = (project.traversals pass ns (m + 1),
        .ok ⟨m + 1, (project.traversals pass ns (m + 1)).count⟩) := by
  induction h with
  | @fails _ n _ _ _ hrun =>
    rw [hcurrent, run_traversals hsucceeds] at hrun
    cases hrun
  | @ends _ n _ _ hrun hcount =>
    rw [hcurrent, run_traversals hsucceeds] at hrun
    cases hrun
    refine ⟨n, Nat.le_refl n, hcount.trans hprevious.symm, fun l hl hl' ↦ ?_, by rw [hcount]⟩
    exact absurd hl' (Nat.not_lt.2 hl)
  | @goesOn _ n _ _ _ hrun hne _ ih =>
    rw [hcurrent, run_traversals hsucceeds] at hrun
    cases hrun
    obtain ⟨m, hm, hrepeats, hfirst, hresult⟩ := ih rfl rfl
    refine ⟨m, by omega, hrepeats, fun l hl hl' ↦ ?_, hresult⟩
    by_cases hlast : l = n
    · rw [hlast, hprevious]
      exact hne
    · exact hfirst l (by omega) hl'

/-- From a traversal on from which counts do not rise, the bounded loop runs as the unbounded one
does, whatever its bound. It goes on while counts fall, which ends. -/
theorem settleLoop_settleFrom_of_le {n previous : Nat}
    (hle : ∀ m, n ≤ m →
      (project.traversals pass ns (m + 1)).count ≤ (project.traversals pass ns m).count)
    (hprevious : (project.traversals pass ns n).count = previous) (rises : Nat) :
    project.SettleLoop pass previous n (project.traversals pass ns n).ns
      (project.settleFrom pass rises previous n (project.traversals pass ns n).ns) := by
  induction previous using Nat.strongRecOn generalizing n with
  | ind previous ih =>
    have hrun := run_traversals hsucceeds n
    have hnext := hle n (Nat.le_refl n)
    rw [settleFrom, hrun]
    dsimp only
    by_cases heq : (project.traversals pass ns (n + 1)).count = previous
    · rw [if_pos heq]
      exact .ends hrun heq
    · have hlt : (project.traversals pass ns (n + 1)).count < previous := by omega
      rw [if_neg heq, if_pos hlt]
      exact .goesOn hrun heq (ih _ hlt (fun m hm ↦ hle m (by omega)) rfl)

/-- Where the count may rise, one more rise is allowed than in what follows. -/
theorem settleLoop_settleFrom_succ {n previous rises : Nat}
    (h : ∀ rises', rises ≤ rises' →
      project.SettleLoop pass (project.traversals pass ns (n + 1)).count (n + 1)
        (project.traversals pass ns (n + 1)).ns
        (project.settleFrom pass rises' (project.traversals pass ns (n + 1)).count (n + 1)
          (project.traversals pass ns (n + 1)).ns)) :
    project.SettleLoop pass previous n (project.traversals pass ns n).ns
      (project.settleFrom pass (rises + 1) previous n (project.traversals pass ns n).ns) := by
  have hrun := run_traversals hsucceeds n
  rw [settleFrom, hrun]
  dsimp only
  by_cases heq : (project.traversals pass ns (n + 1)).count = previous
  · rw [if_pos heq]
    exact .ends hrun heq
  · rw [if_neg heq]
    split
    · exact .goesOn hrun heq (h (rises + 1) (Nat.le_succ rises))
    · exact .goesOn hrun heq (h rises (Nat.le_refl rises))

/-- **The bound is never met** where counts do not rise from the second traversal on: the first is
compared with zero, the second may still see what earlier passes left behind. -/
theorem settleLoop_settle_of_succeeds
    (hle : ∀ n, (project.traversals pass ns (n + 3)).count ≤
      (project.traversals pass ns (n + 2)).count) :
    project.SettleLoop pass 0 0 ns (project.settle pass ns) := by
  refine settleLoop_settleFrom_succ (n := 0) hsucceeds fun rises hrises ↦ ?_
  obtain ⟨rises, rfl⟩ := Nat.exists_eq_add_of_le' hrises
  refine settleLoop_settleFrom_succ (n := 1) hsucceeds fun rises' _ ↦ ?_
  refine settleLoop_settleFrom_of_le hsucceeds (fun m hm ↦ ?_) rfl rises'
  obtain ⟨m, rfl⟩ := Nat.exists_eq_add_of_le' hm
  exact hle m

end Succeeds

/-- The bounded loop runs as the unbounded one does if the pass keeps the list of files, and counts
do not rise from the second traversal on unless a file cannot be used. -/
theorem settleLoop_settle
    (hsources : ∀ n, (project.traversals pass ns n).ns.sources = ns.sources)
    (hle : project.Readable ns.sources → ∀ n,
      (project.traversals pass ns (n + 3)).count ≤ (project.traversals pass ns (n + 2)).count) :
    project.SettleLoop pass 0 0 ns (project.settle pass ns) := by
  by_cases hread : project.Readable ns.sources
  · refine settleLoop_settle_of_succeeds (fun n ↦ ?_) (hle hread)
    rw [Project.run, traverse_snd_eq_none_iff]
    exact (hsources n).symm ▸ hread
  · -- the first traversal fails
    have hfails := mt (traverse_snd_eq_none_iff pass { ns }).1 hread
    rcases hrun : project.run pass { ns } with ⟨progress, - | failure⟩
    · exact absurd (congrArg Prod.snd hrun) hfails
    · rw [settle, settleFrom, hrun]
      exact .fails hrun

/-! ### Repetitions that settle -/

/-- As long as counts fall from the first on, each traversal takes one off. -/
theorem count_add_le {m : Nat}
    (hlt : ∀ n, 0 < n → n < m →
      (project.traversals pass ns (n + 1)).count < (project.traversals pass ns n).count)
    {n : Nat} (hn : n + 1 ≤ m) :
    (project.traversals pass ns (n + 1)).count + n ≤ (project.traversals pass ns 1).count := by
  induction n with
  | zero => exact Nat.le_refl _
  | succ n ih =>
    have hfalls := hlt (n + 1) (Nat.succ_pos n) (by omega)
    have hle := ih (by omega)
    omega

/-- **Termination.** A pass that never fails, and whose counts do not rise from the first on,
settles. -/
theorem exists_settles
    (hsucceeds : ∀ n, (project.run pass { ns := (project.traversals pass ns n).ns }).2 = none)
    (hle : ∀ n, (project.traversals pass ns (n + 2)).count ≤
      (project.traversals pass ns (n + 1)).count) :
    ∃ settled, project.Settles pass ns settled := by
  have hloop := settleLoop_settle_of_succeeds hsucceeds fun n ↦ hle (n + 1)
  obtain ⟨m, -, hrepeats, hfirst, hresult⟩ :=
    hloop.exists_repeat hsucceeds (show ns = (project.traversals pass ns 0).ns from rfl) rfl
  refine ⟨⟨m + 1, (project.traversals pass ns (m + 1)).count⟩, hsucceeds, hle, hresult, rfl,
    Nat.succ_pos m, ?_, hrepeats,
    fun n hn ↦ hfirst n (Nat.zero_le n) (Nat.lt_of_succ_lt_succ hn)⟩
  -- up to the last traversal counts differ, and so fall
  have hlt : ∀ n, 0 < n → n < m →
      (project.traversals pass ns (n + 1)).count < (project.traversals pass ns n).count := by
    intro n hpos hn
    obtain ⟨n, rfl⟩ := Nat.exists_eq_add_one.2 hpos
    exact Nat.lt_of_le_of_ne (hle n) (hfirst (n + 1) (Nat.zero_le _) hn)
  cases m with
  | zero => exact Nat.le_add_left 1 _
  | succ m =>
    have hcount := count_add_le hlt (Nat.le_refl (m + 1))
    show m + 1 + 1 ≤ _
    omega

/-- The repetition ends with the first traversal that counts as many as the one before. -/
theorem Settles.iterations_eq {settled : Settled} (h : project.Settles pass ns settled) {n : Nat}
    (hrepeats : (project.traversals pass ns (n + 1)).count = (project.traversals pass ns n).count)
    (hfirst : ∀ m < n,
      (project.traversals pass ns (m + 1)).count ≠ (project.traversals pass ns m).count) :
    settled.iterations = n + 1 := by
  have hpos := h.pos
  obtain hlt | heq | hgt := Nat.lt_trichotomy settled.iterations (n + 1)
  · have hlast := hfirst (settled.iterations - 1) (by omega)
    rw [Nat.sub_add_cancel hpos] at hlast
    exact absurd h.repeats hlast
  · exact heq
  · exact absurd hrepeats (h.first n hgt)

/-- A pass that settles is resolved. -/
theorem Settles.resolve_eq {settled : Settled} (h : project.Settles pass ns settled) :
    project.resolve pass ns =
      .ok ((project.traversals pass ns settled.iterations).ns, settled) := by
  rw [resolve, h.result]
  rfl

end Project

end CodeAtlas
