import Mathlib.Data.List.Perm.Basic

/-!
# Folds, and computations that may fail

Most functions of the analysis go through a list, and change a state at each element of it. Some of
them may fail, and stop at the first element where they do. What is said of such functions is
independent of the state and of what is done to it, and is collected here.

Two computations of which the second goes on from the first are taken apart with `bind_eq_ok_iff`.
So a fold that succeeds is a first step that does and a fold over the rest
(`foldlM_cons_eq_ok_iff`), or two folds, one after the other (`foldlM_append_eq_ok_iff`). Three
principles then save most inductions:

* a property of the state that each successful step keeps holds after a successful fold
  (`foldlM_ok_induction`);
* a part of the state that no step changes is the same after a fold (`foldl_keeps`);
* blocks of steps can be taken in any order, if steps of different blocks can be swapped
  (`foldl_flatMap_perm`).

Where a computation is run on a concrete input, `exists_ok_of_toOption` gives that it succeeds and
what is read off from its result, from one equation that can be decided.
-/

namespace CodeAtlas

/-! ### Computations that may fail -/

/-- Two computations, one after the other, succeed if the first does and then the second. -/
theorem bind_eq_ok_iff {ε α β : Type} {x : Except ε α} {f : α → Except ε β} {b : β} :
    x >>= f = .ok b ↔ ∃ a, x = .ok a ∧ f a = .ok b := by
  constructor
  · intro h
    cases x with
    | error e => cases h
    | ok a => exact ⟨a, rfl, h⟩
  · rintro ⟨a, rfl, h⟩
    exact h

/-- A computation that succeeds with something to be read off. -/
theorem exists_ok_of_toOption {ε α β : Type} {x : Except ε α} {f : α → β} {b : β}
    (h : x.toOption.map f = some b) : ∃ a, x = .ok a ∧ f a = b := by
  cases x with
  | error e => cases h
  | ok a => exact ⟨a, rfl, Option.some.inj h⟩

theorem foldlM_cons_eq_ok_iff {σ α ε : Type} {f : σ → α → Except ε σ} {a : α} {l : List α}
    {s s' : σ} : (a :: l).foldlM f s = .ok s' ↔ ∃ t, f s a = .ok t ∧ l.foldlM f t = .ok s' := by
  rw [List.foldlM_cons, bind_eq_ok_iff]

theorem foldlM_append_eq_ok_iff {σ α ε : Type} {f : σ → α → Except ε σ} {l l' : List α}
    {s s' : σ} :
    (l ++ l').foldlM f s = .ok s' ↔ ∃ t, l.foldlM f s = .ok t ∧ l'.foldlM f t = .ok s' := by
  rw [List.foldlM_append, bind_eq_ok_iff]

/-- A property that each step of a fold keeps, where it succeeds, holds after the fold. -/
theorem foldlM_ok_induction {σ α ε : Type} {f : σ → α → Except ε σ} (holds : σ → Prop) {l : List α}
    (hstep : ∀ s, ∀ a ∈ l, ∀ s', holds s → f s a = .ok s' → holds s') {s s' : σ} (h : holds s)
    (hfold : l.foldlM f s = .ok s') : holds s' := by
  induction l generalizing s with
  | nil =>
    cases hfold
    exact h
  | cons a rest ih =>
    obtain ⟨t, ht, hrest⟩ := foldlM_cons_eq_ok_iff.1 hfold
    refine ih (fun u b hb ↦ hstep u b (List.mem_cons_of_mem _ hb)) ?_ hrest
    exact hstep s a List.mem_cons_self t h ht

/-! ### Folds that cannot fail -/

/-- A part of the state that no step changes is the same after all steps. -/
theorem foldl_keeps {σ α β : Type} (read : σ → β) {step : σ → α → σ}
    (h : ∀ s a, read (step s a) = read s) (l : List α) (s : σ) :
    read (l.foldl step s) = read s := by
  induction l generalizing s with
  | nil => rfl
  | cons a rest ih => exact (ih (step s a)).trans (h s a)

section Swap

variable {σ α β : Type} {step : σ → β → σ}

/-- A step can be taken before a block of steps that it can be swapped with. -/
theorem step_foldl_comm {as : List β} {b : β}
    (h : ∀ a ∈ as, ∀ s, step (step s a) b = step (step s b) a) (s : σ) :
    step (as.foldl step s) b = as.foldl step (step s b) := by
  induction as generalizing s with
  | nil => rfl
  | cons a rest ih =>
    rw [List.foldl_cons, ih fun a ha ↦ h a (List.mem_cons_of_mem _ ha), h a List.mem_cons_self,
      List.foldl_cons]

/-- Two blocks can be swapped, if each step of one can be swapped with each step of the other. -/
theorem foldl_foldl_comm {as bs : List β}
    (h : ∀ a ∈ as, ∀ b ∈ bs, ∀ s, step (step s a) b = step (step s b) a) (s : σ) :
    bs.foldl step (as.foldl step s) = as.foldl step (bs.foldl step s) := by
  induction bs generalizing s with
  | nil => rfl
  | cons b rest ih =>
    rw [List.foldl_cons, step_foldl_comm fun a ha ↦ h a ha b List.mem_cons_self,
      ih fun a ha b hb ↦ h a ha b (List.mem_cons_of_mem _ hb), List.foldl_cons]

/-- Blocks of steps can be taken in any order, if steps of different blocks can be swapped. -/
theorem foldl_flatMap_perm {steps : α → List β} {l l' : List α} (hperm : l.Perm l')
    (hswap : ∀ x ∈ l, ∀ y ∈ l, x ≠ y → ∀ a ∈ steps x, ∀ b ∈ steps y, ∀ s,
      step (step s a) b = step (step s b) a) (s : σ) :
    (l.flatMap steps).foldl step s = (l'.flatMap steps).foldl step s := by
  rw [List.foldl_flatMap, List.foldl_flatMap]
  refine hperm.foldl_eq' (fun x hx y hy s ↦ ?_) s
  by_cases hxy : x = y
  · rw [hxy]
  · exact foldl_foldl_comm (hswap x hx y hy hxy) s

end Swap

end CodeAtlas
