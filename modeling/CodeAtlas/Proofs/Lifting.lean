import CodeAtlas.Proofs.Condense

/-!
# The loop that lifts a relation

`lift` bounds its steps by the lengths of the names. The loop itself has no bound: it looks at the
two ends, stops or replaces one or both by their parents, and looks again. `LiftLoop` is this loop
as a relation between the ends and an outcome, with one rule for each way out and one for going on;
that the loop ends is that there is an outcome.

## One outcome

In a consistent namespace each round shortens a name (`Consistent.depth_round_lt`), so the bound is
never met and the loop has one outcome, the value of `lift` (`Consistent.liftLoop_iff`). The proof
has two directions. An outcome of the loop is what the bounded lifting gives
(`LiftLoop.liftWithin_eq`), by induction on the loop; and the bounded lifting runs through the loop
(`Consistent.liftLoop_liftWithin`), by induction on the bound.

## Siblings

What the outcome is follows from the siblings above the two ends, of which there is at most one pair
(`Consistent.lifts_unique`). If one end is inside the other there are none, since siblings are
equally deep and a chain has one entity of each depth (`Consistent.lift_eq_none_of_mem`).
-/

namespace CodeAtlas

namespace Namespace

variable {ns : Namespace} {p q s t : Id} {r : Option Lifted}

/-! ### The loop without a bound -/

/-- The ends of a relation are lifted round by round, and this is the outcome. -/
inductive LiftLoop (ns : Namespace) : (source target : Id) → Option Lifted → Prop
  /-- The ends meet. -/
  | met (s : Id) : LiftLoop ns s s none
  /-- The source cannot be lifted. -/
  | sourceTop {s t : Id} (hne : s ≠ t) (hs : ns.parent? s = none) : LiftLoop ns s t none
  /-- The target cannot be lifted. -/
  | targetTop {s t p : Id} (hne : s ≠ t) (hs : ns.parent? s = some p)
      (ht : ns.parent? t = none) : LiftLoop ns s t none
  /-- The ends are siblings. -/
  | siblings {s t p : Id} (hne : s ≠ t) (hs : ns.parent? s = some p)
      (ht : ns.parent? t = some p) : LiftLoop ns s t (some ⟨p, s, t⟩)
  /-- The deeper end is lifted, both if they are equally deep. -/
  | round {s t p q : Id} {r : Option Lifted} (hne : s ≠ t) (hs : ns.parent? s = some p)
      (ht : ns.parent? t = some q) (hpq : p ≠ q)
      (next : LiftLoop ns (if ns.depth s ≥ ns.depth t then p else s)
        (if ns.depth t ≥ ns.depth s then q else t) r) : LiftLoop ns s t r

/-- A round shortens a name, so what is left of the bound still bounds what is left of the loop. -/
theorem Consistent.depth_round_lt (h : ns.Consistent) {steps : Nat} (hs : ns.parent? s = some p)
    (ht : ns.parent? t = some q) (hsteps : ns.depth s + ns.depth t < steps + 1) :
    ns.depth (if ns.depth s ≥ ns.depth t then p else s) +
      ns.depth (if ns.depth t ≥ ns.depth s then q else t) < steps := by
  have hsdepth := h.depth_parent? hs
  have htdepth := h.depth_parent? ht
  split <;> split <;> omega

/-- An outcome of the loop is what the bounded lifting gives. -/
theorem LiftLoop.liftWithin_eq (hloop : ns.LiftLoop s t r) (h : ns.Consistent) {steps : Nat}
    (hsteps : ns.depth s + ns.depth t < steps) : ns.liftWithin steps s t = r := by
  induction hloop generalizing steps with
  | met s =>
    cases steps with
    | zero => omega
    | succ steps => rw [liftWithin, if_pos rfl]
  | sourceTop hne hs =>
    cases steps with
    | zero => omega
    | succ steps =>
      rw [liftWithin, if_neg hne, hs]
      rfl
  | targetTop hne hs ht =>
    cases steps with
    | zero => omega
    | succ steps =>
      rw [liftWithin, if_neg hne, hs, ht]
      rfl
  | siblings hne hs ht =>
    cases steps with
    | zero => omega
    | succ steps =>
      rw [liftWithin, if_neg hne, hs, ht]
      simp only [Option.bind_eq_bind, Option.bind_some, if_pos]
      rfl
  | round hne hs ht hpq _ ih =>
    cases steps with
    | zero => omega
    | succ steps =>
      rw [liftWithin, if_neg hne, hs, ht]
      simp only [Option.bind_eq_bind, Option.bind_some, if_neg hpq]
      exact ih (h.depth_round_lt hs ht hsteps)

/-- The loop ends: with a bound that is not met, the bounded lifting runs through it. -/
theorem Consistent.liftLoop_liftWithin (h : ns.Consistent) {steps : Nat}
    (hsteps : ns.depth s + ns.depth t < steps) :
    ns.LiftLoop s t (ns.liftWithin steps s t) := by
  induction steps generalizing s t with
  | zero => omega
  | succ steps ih =>
    rw [liftWithin]
    by_cases hst : s = t
    · rw [if_pos hst, hst]
      exact .met t
    rw [if_neg hst]
    cases hs : ns.parent? s with
    | none => exact .sourceTop hst hs
    | some p =>
      cases ht : ns.parent? t with
      | none => exact .targetTop hst hs ht
      | some q =>
        simp only [Option.bind_eq_bind, Option.bind_some]
        by_cases hpq : p = q
        · subst hpq
          rw [if_pos rfl]
          exact .siblings hst hs ht
        · rw [if_neg hpq]
          exact .round hst hs ht hpq (ih (h.depth_round_lt hs ht hsteps))

/-- The value of `lift` is an outcome of the loop, and the only one. -/
theorem Consistent.liftLoop_iff (h : ns.Consistent) : ns.LiftLoop s t r ↔ r = ns.lift s t := by
  constructor
  · intro hloop
    exact (hloop.liftWithin_eq h (Nat.lt_succ_self _)).symm
  · rintro rfl
    exact h.liftLoop_liftWithin (Nat.lt_succ_self _)

/-! ### The siblings above two ends -/

/-- There is at most one pair of siblings above two ends. -/
theorem Consistent.lifts_unique (h : ns.Consistent) {l l' : Lifted} (hl : ns.Lifts s t l)
    (hl' : ns.Lifts s t l') : l = l' :=
  Option.some.inj ((h.lift_eq_some_iff.2 hl).symm.trans (h.lift_eq_some_iff.2 hl'))

/-- The siblings above two ends, without the remark that their parent is there. -/
theorem Consistent.lifts_iff (h : ns.Consistent) {l : Lifted} :
    ns.Lifts s t l ↔
      l.source ∈ ns.ancestors s ∧ l.target ∈ ns.ancestors t ∧ l.source ≠ l.target ∧
        ns.parent? l.source = some l.parent ∧ ns.parent? l.target = some l.parent :=
  ⟨fun hl ↦ ⟨hl.source_mem, hl.target_mem, hl.ne, hl.source_parent, hl.target_parent⟩,
    fun ⟨hs, ht, hne, hsp, htp⟩ ↦ ⟨hs, ht, hne, hsp, htp, h.isSome_get?_of_parent? hsp⟩⟩

/-- Along one chain there are no siblings: they would be entities of one depth in it. -/
theorem Consistent.lift_eq_none_of_mem (h : ns.Consistent)
    (hmem : s ∈ ns.ancestors t ∨ t ∈ ns.ancestors s) : ns.lift s t = none := by
  refine Option.eq_none_iff_forall_ne_some.2 fun l hlift ↦ ?_
  have hl := h.lift_eq_some_iff.1 hlift
  rcases hmem with hmem | hmem
  · exact hl.ne (h.eq_of_depth_eq (h.mem_ancestors_trans hl.source_mem hmem) hl.target_mem
      (hl.depth_eq h))
  · exact hl.ne (h.eq_of_depth_eq hl.source_mem (h.mem_ancestors_trans hl.target_mem hmem)
      (hl.depth_eq h))

/-- The loop ends with one outcome, which `lift` computes: the pair of siblings above the two
ends, of which there is at most one, and nothing if there is none. In particular there is nothing
if one end is or contains the other. -/
theorem lift_finds_only_siblings (ns : Namespace) (h : ns.Consistent) (s t : Id) :
    (∀ r, ns.LiftLoop s t r ↔ r = ns.lift s t) ∧
    (∀ p s' t', ns.lift s t = some ⟨p, s', t'⟩ ↔
      s' ∈ ns.ancestors s ∧ t' ∈ ns.ancestors t ∧ s' ≠ t' ∧
        ns.parent? s' = some p ∧ ns.parent? t' = some p) ∧
    (∀ a ∈ ns.ancestors s, ∀ b ∈ ns.ancestors t, ∀ a' ∈ ns.ancestors s, ∀ b' ∈ ns.ancestors t,
      (a ≠ b ∧ ∃ p, ns.parent? a = some p ∧ ns.parent? b = some p) →
      (a' ≠ b' ∧ ∃ p, ns.parent? a' = some p ∧ ns.parent? b' = some p) → a = a' ∧ b = b') ∧
    (s ∈ ns.ancestors t ∨ t ∈ ns.ancestors s → ns.lift s t = none) := by
  refine ⟨fun r ↦ h.liftLoop_iff, fun p s' t' ↦ ?_, ?_, h.lift_eq_none_of_mem⟩
  · rw [h.lift_eq_some_iff, h.lifts_iff]
  · rintro a ha b hb a' ha' b' hb' ⟨hne, p, hap, hbp⟩ ⟨hne', p', hap', hbp'⟩
    have hl : ns.Lifts s t ⟨p, a, b⟩ := h.lifts_iff.2 ⟨ha, hb, hne, hap, hbp⟩
    have hl' : ns.Lifts s t ⟨p', a', b'⟩ := h.lifts_iff.2 ⟨ha', hb', hne', hap', hbp'⟩
    cases h.lifts_unique hl hl'
    exact ⟨rfl, rfl⟩

/-- Of a function and a method of different depths, the loop finds the two modules. -/
theorem lift_finds_only_siblings_crossing :
    crossing.Consistent ∧ crossing.LiftLoop 2 5 (some ⟨0, 1, 3⟩) ∧
      (1 ∈ crossing.ancestors 2 ∧ 3 ∈ crossing.ancestors 5) ∧ crossing.lift 3 5 = none := by
  obtain ⟨hloop, hfinds, -, -⟩ := lift_finds_only_siblings crossing consistent_crossing 2 5
  obtain ⟨-, -, -, hchain⟩ := lift_finds_only_siblings crossing consistent_crossing 3 5
  have hlift : crossing.lift 2 5 = some ⟨0, 1, 3⟩ := by decide +kernel
  obtain ⟨hsource, htarget, -⟩ := (hfinds 0 1 3).1 hlift
  exact ⟨consistent_crossing, (hloop _).2 hlift.symm, ⟨hsource, htarget⟩, hchain (.inl htarget)⟩

end Namespace

end CodeAtlas
