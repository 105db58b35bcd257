import CodeAtlas.Proofs.Exports.Settle
import CodeAtlas.Proofs.Imports.Settle
import CodeAtlas.Proofs.Later

/-!
# Repetitions in a session

In a session passes run one at a time and in any order, with files that may change in between. So a
pass may be repeated in namespaces that no analysis comes to: export lists and imports are left from
files that say something else now, relations were added and condensed before, and files may be gone.

## The loop ends

All the same, a repetition ends as the loop without a bound does (`Session.settle_runs_loop`). It
takes two facts. A session stays among the namespaces that come after the one it started with,
whatever is done in it (`Reached.exists_later`), so the components of its source files are there.
And in such a namespace counts do not rise from the second traversal on, for either of the passes
that are repeated (`Repeated.settleLoop_settle`), unless a file cannot be used, which ends the loop
at once.

## What is not said

Nothing is said here about what the names are bound to at the end, which may well be left from files
that are gone. For a namespace that was just built this is the subject of
`CodeAtlas.Proofs.Imports.Resolution` and `CodeAtlas.Proofs.Exports.Stability`.
-/

namespace CodeAtlas

/-! ### Any namespace -/

namespace Repeated

variable {project : Project} {ns : Namespace}

/-- Traversals keep the outline. -/
theorem sameOutline_traversals (r : Repeated) (project : Project) (ns : Namespace) (n : Nat) :
    ns.SameOutline (project.traversals r.pass ns n).ns := by
  induction n with
  | zero => exact (Namespace.SameScopes.refl ns).toSameOutline
  | succ n ih =>
    refine Project.traverse_induction (fun component file p hp ↦ ?_) ih
    exact hp.trans (r.sameOutline_pass component file p)

/-- **The bound is never met.** Where the files of a namespace are those of components, repeating a
pass ends as the loop without a bound does, whatever passes did before. -/
theorem settleLoop_settle (r : Repeated) (hlive : ns.SourcesLive) :
    project.SettleLoop r.pass 0 0 ns (project.settle r.pass ns) := by
  refine Project.settleLoop_settle (fun n ↦ (r.sameOutline_traversals project ns n).sources)
    fun hread n ↦ ?_
  cases r with
  | exports => exact Exports.Usable.count_traversals_succ_le ⟨hread, hlive⟩ n
  | imports => exact Imports.Steady.count_traversals_le ⟨hread, rfl⟩ (n + 1)

end Repeated

/-! ### Sessions -/

namespace Session

/-- What a session may come to: it is started, and then passes run or are repeated, counts are
reset, relations are condensed and files change, in any order. Passes may fail on the way. -/
inductive Reached : Session → Prop
  | start {project : Project} {s : Session} (h : Session.start project = .ok s) : Reached s
  | runRepeated {s : Session} (h : Reached s) (r : Repeated) : Reached (s.runRepeated r).1
  | settle {s : Session} (h : Reached s) (r : Repeated) : Reached (s.settle r).1
  | relate {s : Session} (h : Reached s) (r : Relating) : Reached (s.relate r).1
  | reset {s : Session} (h : Reached s) : Reached s.reset
  | condense {s : Session} (h : Reached s) : Reached s.condense.1
  | setEntries {s : Session} (h : Reached s) (entries : List Entry) : Reached (s.setEntries entries)

variable {s : Session}

/-- The namespace of a session comes after the one that was built at its start. -/
theorem Reached.exists_later (h : s.Reached) :
    ∃ (project : Project) (built : Namespace), project.build = .ok built ∧ built.Later s.ns := by
  induction h with
  | @start project s h =>
    cases hbuild : project.build with
    | error failure =>
      rw [Session.start, hbuild] at h
      cases h
    | ok built =>
      rw [Session.start, hbuild] at h
      cases h
      exact ⟨project, built, hbuild, .refl⟩
  | @runRepeated s _ r ih =>
    obtain ⟨project, built, hbuild, hlater⟩ := ih
    exact ⟨project, built, hbuild, (hlater.runsStay s.project).repeated r _⟩
  | @settle s _ r ih =>
    obtain ⟨project, built, hbuild, hlater⟩ := ih
    exact ⟨project, built, hbuild, (hlater.runsStay s.project).settled r⟩
  | @relate s _ r ih =>
    obtain ⟨project, built, hbuild, hlater⟩ := ih
    exact ⟨project, built, hbuild, (hlater.runsStay s.project).relating r _⟩
  | reset _ ih => exact ih
  | condense _ ih =>
    obtain ⟨project, built, hbuild, hlater⟩ := ih
    exact ⟨project, built, hbuild, hlater.condense⟩
  | setEntries _ _ ih => exact ih

/-- The source files of a session are those of components. -/
theorem Reached.sourcesLive (h : s.Reached) : s.ns.SourcesLive := by
  obtain ⟨_, _, hbuild, hlater⟩ := h.exists_later
  exact hlater.sameOutline.sourcesLive (Namespace.sound_build hbuild).sourcesLive

/-- **Repetitions in a session.** Whatever was done in a session, and whatever its files are by now,
the loop without a bound has one outcome, and this is what repeating a pass leads to. -/
theorem settle_runs_loop (h : s.Reached) (r : Repeated) :
    ∃ (progress : Progress) (result : Except Failure Settled),
      (∀ outcome, s.project.SettleLoop r.pass 0 0 s.ns outcome ↔ outcome = (progress, result)) ∧
      s.settle r =
        ({ s with ns := progress.ns, counts := s.counts.setRepeated progress.count r },
          result) := by
  have hloop : s.project.SettleLoop r.pass 0 0 s.ns (s.project.settle r.pass s.ns) :=
    r.settleLoop_settle h.sourcesLive
  rcases hsettle : s.project.settle r.pass s.ns with ⟨progress, result⟩
  rw [hsettle] at hloop
  refine ⟨progress, result, fun outcome ↦ ⟨fun houtcome ↦ houtcome.unique hloop, ?_⟩, ?_⟩
  · rintro rfl
    exact hloop
  · rw [settle, hsettle]

end Session

end CodeAtlas
