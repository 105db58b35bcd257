import CodeAtlas.Namespace.Condense
import CodeAtlas.Proofs.Consistency
import CodeAtlas.Proofs.QualNames

/-!
# Containment by name

Entities are inside each other by name: the parent of an entity is the one whose name is without the
last segment. This module is about chains of parents in a consistent namespace, and about lifting a
relation along two such chains.

## Chains of parents

The parent of an entity is an entity whose name has one segment less (`Consistent.depth_parent?`),
so the entities around an entity form a chain in which the depth falls by one from each to the next
(`Consistent.mem_ancestors_iff`). Two entities of one chain with the same depth are the same
(`Consistent.eq_of_depth_eq`). A property that passes from a parent to those in it holds of all
entities (`Consistent.parent_induction`), which is the induction used for everything below.

## Lifting

A relation between two entities lifts to a relation between siblings in at most one way (`Lifts`):
siblings have the same depth, and above them the two chains are one. Lifting goes to the parent of
the deeper end, or of both ends if they are equally deep, until the two have the same parent. This
never steps past the siblings (`Consistent.lifts_iff_of_not_siblings`), so it finds them exactly if
they exist (`Consistent.lift_eq_some_iff`). The number of steps that it may take is the sum of the
two depths, and it takes fewer (`Consistent.liftWithin_eq_some_iff`).
-/

namespace CodeAtlas

namespace Namespace

variable {ns ns' : Namespace} {id a b p q s t : Id}

/-! ### Parents -/

/-- The parent of an entity is what its name without the last segment leads to. -/
theorem parent?_eq_some_iff :
    ns.parent? id = some p ↔
      ∃ e, ns.get? id = some e ∧
        ∃ name, e.qualName.parent = some name ∧ ns.lookup name = some p := by
  simp only [parent?, Option.bind_eq_bind, Option.bind_eq_some_iff]

/-- The name of the parent has one segment less. -/
theorem Consistent.depth_parent? (h : ns.Consistent) (hp : ns.parent? id = some p) :
    ns.depth p + 1 = ns.depth id := by
  obtain ⟨e, he, name, hname, hlookup⟩ := parent?_eq_some_iff.1 hp
  obtain ⟨e', he', rfl⟩ := h.exists_of_lookup name p hlookup
  rw [depth, depth, he, he']
  exact QualName.depth_of_parent hname

/-- In a consistent namespace parents are there. -/
theorem Consistent.isSome_get?_of_parent? (h : ns.Consistent) (hp : ns.parent? id = some p) :
    (ns.get? p).isSome := by
  obtain ⟨_, _, name, _, hlookup⟩ := parent?_eq_some_iff.1 hp
  exact h.isSome_get? hlookup

/-! ### Chains of parents -/

/-- An entity without a parent is the only one around itself. -/
theorem ancestors_of_parent?_eq_none (hp : ns.parent? id = none) : ns.ancestors id = [id] := by
  rw [ancestors]
  cases ns.depth id with
  | zero => rfl
  | succ levels => simp only [climb, hp]

/-- The chain of an entity is the entity and the chain of its parent. -/
theorem Consistent.ancestors_of_parent? (h : ns.Consistent) (hp : ns.parent? id = some p) :
    ns.ancestors id = id :: ns.ancestors p := by
  rw [ancestors, ← h.depth_parent? hp]
  simp only [climb, hp]
  rfl

/-- The entities around an entity are itself and those around its parent. -/
theorem Consistent.mem_ancestors_iff (h : ns.Consistent) :
    a ∈ ns.ancestors id ↔ a = id ∨ ∃ p, ns.parent? id = some p ∧ a ∈ ns.ancestors p := by
  cases hp : ns.parent? id with
  | none => simp [ancestors_of_parent?_eq_none hp]
  | some p => simp [h.ancestors_of_parent? hp]

/-- Induction towards the root: what passes from a parent to those in it holds of all. -/
theorem Consistent.parent_induction (h : ns.Consistent) {motive : Id → Prop}
    (step : ∀ id, (∀ p, ns.parent? id = some p → motive p) → motive id) (id : Id) : motive id := by
  induction hdepth : ns.depth id using Nat.strongRecOn generalizing id with
  | ind depth ih =>
    refine step id fun p hp ↦ ih (ns.depth p) ?_ p rfl
    have := h.depth_parent? hp
    omega

/-- Entities around another are at most as deep as it is. -/
theorem Consistent.depth_le_of_mem (h : ns.Consistent) (ha : a ∈ ns.ancestors id) :
    ns.depth a ≤ ns.depth id := by
  induction id using h.parent_induction with
  | step id ih =>
    rcases h.mem_ancestors_iff.1 ha with rfl | ⟨p, hp, ha⟩
    · exact Nat.le_refl _
    · have hle := ih p hp ha
      have hdepth := h.depth_parent? hp
      omega

/-- An entity around another and as deep as it is the same. -/
theorem Consistent.eq_of_mem_of_depth_eq (h : ns.Consistent) (ha : a ∈ ns.ancestors id)
    (hdepth : ns.depth a = ns.depth id) : a = id := by
  rcases h.mem_ancestors_iff.1 ha with rfl | ⟨p, hp, ha⟩
  · rfl
  · have hle := h.depth_le_of_mem ha
    have hparent := h.depth_parent? hp
    omega

/-- Of the entities around one there is at most one of each depth. -/
theorem Consistent.eq_of_depth_eq (h : ns.Consistent) (ha : a ∈ ns.ancestors id)
    (hb : b ∈ ns.ancestors id) (hdepth : ns.depth a = ns.depth b) : a = b := by
  induction id using h.parent_induction with
  | step id ih =>
    rcases h.mem_ancestors_iff.1 ha with rfl | ⟨p, hp, ha'⟩
    · exact (h.eq_of_mem_of_depth_eq hb hdepth.symm).symm
    · rcases h.mem_ancestors_iff.1 hb with rfl | ⟨p', hp', hb'⟩
      · exact h.eq_of_mem_of_depth_eq ha hdepth
      · cases hp.symm.trans hp'
        exact ih p hp ha' hb'

/-- What is around an entity around another is around that one too. -/
theorem Consistent.mem_ancestors_trans (h : ns.Consistent) {c : Id} (hab : a ∈ ns.ancestors b)
    (hbc : b ∈ ns.ancestors c) : a ∈ ns.ancestors c := by
  induction c using h.parent_induction with
  | step c ih =>
    rcases h.mem_ancestors_iff.1 hbc with rfl | ⟨p, hp, hbp⟩
    · exact hab
    · exact h.mem_ancestors_iff.2 (.inr ⟨p, hp, ih p hp hbp⟩)

/-- What an entity is inside of is the entity itself or has a child that it is inside of. -/
theorem Consistent.exists_child_of_mem (h : ns.Consistent) (ha : a ∈ ns.ancestors id) :
    a = id ∨ ∃ child ∈ ns.ancestors id, ns.parent? child = some a := by
  induction id using h.parent_induction with
  | step id ih =>
    rcases h.mem_ancestors_iff.1 ha with rfl | ⟨p, hp, hap⟩
    · exact .inl rfl
    · refine .inr ?_
      rcases ih p hp hap with rfl | ⟨child, hchild, hparent⟩
      · exact ⟨id, h.mem_ancestors_iff.2 (.inl rfl), hp⟩
      · exact ⟨child, h.mem_ancestors_iff.2 (.inr ⟨p, hp, hchild⟩), hparent⟩

/-! ### Siblings above two entities -/

/-- A relation between siblings is what a relation lifts to: each of its ends is the end of that
relation or contains it, and the ends differ and have the same parent. -/
structure Lifts (ns : Namespace) (source target : Id) (l : Lifted) : Prop where
  source_mem : l.source ∈ ns.ancestors source
  target_mem : l.target ∈ ns.ancestors target
  ne : l.source ≠ l.target
  source_parent : ns.parent? l.source = some l.parent
  target_parent : ns.parent? l.target = some l.parent
  live : (ns.get? l.parent).isSome

variable {l : Lifted}

namespace Lifts

/-- The two siblings that a relation lifts to are equally deep. -/
theorem depth_eq (hl : ns.Lifts s t l) (h : ns.Consistent) :
    ns.depth l.source = ns.depth l.target := by
  have hsource := h.depth_parent? hl.source_parent
  have htarget := h.depth_parent? hl.target_parent
  omega

/-- Both ends have a parent: the siblings have, and they are the ends or above them. -/
theorem exists_parents (hl : ns.Lifts s t l) (h : ns.Consistent) :
    ∃ p q, ns.parent? s = some p ∧ ns.parent? t = some q := by
  have hparent : ∀ {a id}, a ∈ ns.ancestors id → ns.parent? a = some l.parent →
      ∃ p, ns.parent? id = some p := by
    intro a id ha hp
    rcases h.mem_ancestors_iff.1 ha with rfl | ⟨p, hp, -⟩
    · exact ⟨_, hp⟩
    · exact ⟨p, hp⟩
  obtain ⟨p, hp⟩ := hparent hl.source_mem hl.source_parent
  obtain ⟨q, hq⟩ := hparent hl.target_mem hl.target_parent
  exact ⟨p, q, hp, hq⟩

end Lifts

/-- A relation of an entity with itself lifts to nothing. -/
theorem Consistent.not_lifts_self (h : ns.Consistent) : ¬ ns.Lifts s s l := fun hl ↦
  hl.ne (h.eq_of_depth_eq hl.source_mem hl.target_mem (hl.depth_eq h))

/-- Between siblings, a relation lifts to the one between them. -/
theorem Consistent.lifts_iff_of_siblings (h : ns.Consistent) (hne : s ≠ t)
    (hs : ns.parent? s = some p) (ht : ns.parent? t = some p) :
    ns.Lifts s t l ↔ l = ⟨p, s, t⟩ := by
  constructor
  · intro hl
    have hdepth := hl.depth_eq h
    have hsdepth := h.depth_parent? hs
    have htdepth := h.depth_parent? ht
    rcases h.mem_ancestors_iff.1 hl.source_mem with hsource | ⟨p', hp', hsource⟩
    · have htarget : l.target = t := by
        refine h.eq_of_mem_of_depth_eq hl.target_mem ?_
        rw [← hdepth, hsource]
        omega
      have hparent : l.parent = p := by
        have hsame := hl.source_parent
        rw [hsource, hs] at hsame
        exact (Option.some.inj hsame).symm
      obtain ⟨_, _, _⟩ := l
      cases hsource
      cases htarget
      cases hparent
      rfl
    · -- above the parent there is one chain only, so the ends would be the same
      cases hs.symm.trans hp'
      rcases h.mem_ancestors_iff.1 hl.target_mem with htarget | ⟨q', hq', htarget⟩
      · have hle := h.depth_le_of_mem hsource
        rw [hdepth, htarget] at hle
        omega
      · cases ht.symm.trans hq'
        exact absurd (h.eq_of_depth_eq hsource htarget hdepth) hl.ne
  · rintro rfl
    exact ⟨h.mem_ancestors_iff.2 (.inl rfl), h.mem_ancestors_iff.2 (.inl rfl), hne, hs, ht,
      h.isSome_get?_of_parent? hs⟩

/-- Unless the ends are siblings, the deeper end is not one of the siblings, and neither end is if
both are equally deep. -/
theorem Consistent.lifts_iff_of_not_siblings (h : ns.Consistent) (hpq : p ≠ q)
    (hs : ns.parent? s = some p) (ht : ns.parent? t = some q) :
    ns.Lifts s t l ↔
      ns.Lifts (if ns.depth s ≥ ns.depth t then p else s)
        (if ns.depth t ≥ ns.depth s then q else t) l := by
  have hup : ∀ {a id parent : Id}, ns.parent? id = some parent → a ∈ ns.ancestors parent →
      a ∈ ns.ancestors id := fun hparent ha ↦ h.mem_ancestors_iff.2 (.inr ⟨_, hparent, ha⟩)
  have hdown : ∀ {a id parent : Id}, ns.parent? id = some parent → a ≠ id →
      a ∈ ns.ancestors id → a ∈ ns.ancestors parent := by
    intro a id parent hparent hne ha
    rcases h.mem_ancestors_iff.1 ha with heq | ⟨parent', hparent', ha⟩
    · exact absurd heq hne
    · cases hparent.symm.trans hparent'
      exact ha
  constructor
  · intro hl
    have hdepth := hl.depth_eq h
    have hsource := h.depth_le_of_mem hl.source_mem
    have htarget := h.depth_le_of_mem hl.target_mem
    -- the ends are not both the siblings, since these have one parent
    have hends : ¬ (l.source = s ∧ l.target = t) := by
      rintro ⟨hsource, htarget⟩
      have hsp := hl.source_parent
      have htp := hl.target_parent
      rw [hsource, hs] at hsp
      rw [htarget, ht] at htp
      exact hpq (Option.some.inj (hsp.trans htp.symm))
    refine ⟨?_, ?_, hl.ne, hl.source_parent, hl.target_parent, hl.live⟩
    · split
      · next hge =>
        refine hdown hs (fun heq ↦ hends ⟨heq, ?_⟩) hl.source_mem
        exact h.eq_of_mem_of_depth_eq hl.target_mem (by rw [← hdepth, heq] at htarget ⊢; omega)
      · exact hl.source_mem
    · split
      · next hge =>
        refine hdown ht (fun heq ↦ hends ⟨?_, heq⟩) hl.target_mem
        exact h.eq_of_mem_of_depth_eq hl.source_mem (by rw [hdepth, heq] at hsource ⊢; omega)
      · exact hl.target_mem
  · intro hl
    refine ⟨?_, ?_, hl.ne, hl.source_parent, hl.target_parent, hl.live⟩
    · have hmem := hl.source_mem
      split at hmem
      · exact hup hs hmem
      · exact hmem
    · have hmem := hl.target_mem
      split at hmem
      · exact hup ht hmem
      · exact hmem

/-! ### Lifting finds the siblings -/

/-- The loop finds the siblings, if it may take more steps than the two ends are deep. -/
theorem Consistent.liftWithin_eq_some_iff (h : ns.Consistent) {steps : Nat}
    (hsteps : ns.depth s + ns.depth t < steps) :
    ns.liftWithin steps s t = some l ↔ ns.Lifts s t l := by
  induction steps generalizing s t with
  | zero => omega
  | succ steps ih =>
    rw [liftWithin]
    by_cases hst : s = t
    · rw [if_pos hst, hst]
      exact ⟨nofun, fun hl ↦ absurd hl h.not_lifts_self⟩
    rw [if_neg hst]
    cases hs : ns.parent? s with
    | none =>
      refine ⟨nofun, fun hl ↦ ?_⟩
      obtain ⟨_, _, hs', -⟩ := hl.exists_parents h
      rw [hs] at hs'
      cases hs'
    | some p =>
      cases ht : ns.parent? t with
      | none =>
        refine ⟨nofun, fun hl ↦ ?_⟩
        obtain ⟨_, _, -, ht'⟩ := hl.exists_parents h
        rw [ht] at ht'
        cases ht'
      | some q =>
        simp only [Option.bind_eq_bind, Option.bind_some]
        by_cases hpq : p = q
        · subst hpq
          rw [if_pos rfl, h.lifts_iff_of_siblings hst hs ht]
          exact ⟨fun heq ↦ (Option.some.inj heq).symm, fun heq ↦ congrArg some heq.symm⟩
        · rw [if_neg hpq, h.lifts_iff_of_not_siblings hpq hs ht]
          have hsdepth := h.depth_parent? hs
          have htdepth := h.depth_parent? ht
          refine ih ?_
          split <;> split <;> omega

/-- **Lifting.** The siblings that a relation lifts to are found, exactly if there are such. -/
theorem Consistent.lift_eq_some_iff (h : ns.Consistent) :
    ns.lift s t = some l ↔ ns.Lifts s t l :=
  h.liftWithin_eq_some_iff (Nat.lt_succ_self _)

end Namespace

end CodeAtlas
