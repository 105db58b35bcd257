import Mathlib.Data.List.Basic
import CodeAtlas.Proofs.Imports.Request

/-!
# One traversal

A traversal folds `step` over the visits of all files, and the tables change while it reads them.
What carries the argument is a comparison of three numbers: the requests without an answer in the
tables before the traversal, those that the traversal counted, and those without an answer in the
tables after it. Tables only gain entries (`Grows`), so each number bounds the next
(`unresolved_le_count`, `count_le_unresolved`).

## Closed tables

Tables are closed if every request that they answer is bound where it is made (`Closed`). If the
last two of the three numbers agree, no request was left open that the final tables could answer,
and so the tables are closed under the statements (`closed_of_count_eq`). Here it is used that all
scopes that are visited have tables; a statement in a scope without one would bind nothing.

Closed tables gain no entry from a further traversal (`isSome_imported?_run_iff`). What the entries
refer to may still change, which is why `Grows` compares only which names are bound.

## Soundness

What holds of all entries, and passes from the answers to requests to what is bound, holds of all
entries after a traversal (`run_sound`). This is the induction by which every entry is one that the
statements give.
-/

namespace CodeAtlas

namespace Imports

/-! ### Growing tables -/

/-- The second namespace has the frame of the first and at least its imported names. What they
refer to may differ. -/
structure Grows (ns ns' : Namespace) : Prop where
  frame : ns'.withoutImports = ns.withoutImports
  bound : ∀ id name, (ns.imported? id name).isSome → (ns'.imported? id name).isSome

variable {ns ns' ns'' : Namespace}

namespace Grows

theorem refl (ns : Namespace) : Grows ns ns :=
  ⟨rfl, fun _ _ h ↦ h⟩

theorem trans (h : Grows ns ns') (h' : Grows ns' ns'') : Grows ns ns'' :=
  ⟨h'.frame.trans h.frame, fun id name hb ↦ h'.bound id name (h.bound id name hb)⟩

/-- A request that is answered stays answered. -/
theorem answer (h : Grows ns ns') {r : Request} (hr : (r.answer ns.imported?).isSome) :
    (r.answer ns'.imported?).isSome := by
  rw [Request.isSome_answer_iff] at hr ⊢
  exact hr.imp_left fun ⟨e, he, hb⟩ ↦ ⟨e, he, h.bound e.1 e.2 hb⟩

/-- A request that is open in larger tables is open in smaller ones. -/
theorem isNone_answer (h : Grows ns ns') {r : Request} (hr : (r.answer ns'.imported?).isNone) :
    (r.answer ns.imported?).isNone := by
  rw [Option.isNone_iff_eq_none, ← Option.not_isSome_iff_eq_none] at hr ⊢
  exact fun hs ↦ hr (h.answer hs)

/-- Fewer requests are open in larger tables. -/
theorem unanswered_le (h : Grows ns ns') (rs : List Request) :
    unanswered ns'.imported? rs ≤ unanswered ns.imported? rs :=
  List.countP_mono_left fun _ _ ↦ h.isNone_answer

/-- Where as many requests are open as before, the same ones are. -/
theorem answer_of_unanswered_eq (h : Grows ns ns') {rs : List Request}
    (heq : unanswered ns'.imported? rs = unanswered ns.imported? rs)
    {r : Request} (hr : r ∈ rs) (hs : (r.answer ns'.imported?).isSome) :
    (r.answer ns.imported?).isSome := by
  have hsub : (rs.filter fun r ↦ (r.answer ns'.imported?).isNone).Sublist
      (rs.filter fun r ↦ (r.answer ns.imported?).isNone) :=
    List.monotone_filter_right rs fun _ ↦ h.isNone_answer
  have hsame := hsub.eq_of_length (by
    rw [← List.countP_eq_length_filter, ← List.countP_eq_length_filter]
    exact heq)
  by_contra hn
  have hmem : r ∈ rs.filter fun r ↦ (r.answer ns.imported?).isNone :=
    List.mem_filter.2 ⟨hr, by simpa using hn⟩
  rw [← hsame, List.mem_filter] at hmem
  simp_all

end Grows

/-! ### One statement -/

/-- A statement only adds names to the tables. -/
theorem grows_step (p : Progress) (visit : Visit) : Grows p.ns (step p visit).ns := by
  rw [step_eq]
  exact ⟨withoutImports_bind .., fun _ _ ↦ isSome_imported?_bind⟩

/-- An answered request is bound by the statement that makes it. -/
theorem isSome_imported?_step {p : Progress} {visit : Visit} {r : Request}
    (hscope : (p.ns.scope? visit.scopes.current).isSome) (hr : r ∈ requests p.ns visit)
    (h : (r.answer p.ns.imported?).isSome) :
    ((step p visit).ns.imported? visit.scopes.current r.name).isSome := by
  obtain ⟨q, hq⟩ := Option.isSome_iff_exists.1 h
  have hmem : (r.name, q) ∈ answers p.ns.imported? (requests p.ns visit) :=
    List.mem_filterMap.2 ⟨r, hr, by rw [hq]; rfl⟩
  rw [step_eq]
  exact isSome_imported?_bind_of_mem hscope hmem

/-- An entry after a statement was there before or answers a request of the statement. -/
theorem imported?_step_eq_some {p : Progress} {visit : Visit} {id : Id} {name : String}
    {q : QualName} (h : (step p visit).ns.imported? id name = some q) :
    p.ns.imported? id name = some q ∨
      id = visit.scopes.current ∧
        ∃ r ∈ requests p.ns visit, r.name = name ∧ r.answer p.ns.imported? = some q := by
  rw [step_eq] at h
  refine (imported?_bind_eq_some h).imp_right fun ⟨hid, hmem⟩ ↦ ⟨hid, ?_⟩
  obtain ⟨r, hr, hanswer⟩ := List.mem_filterMap.1 hmem
  obtain ⟨q', hq', heq⟩ := Option.map_eq_some_iff.1 hanswer
  cases heq
  exact ⟨r, hr, rfl, hq'⟩

/-! ### All statements -/

/-- How many requests made at some visits have no answer in the tables as they are. -/
def unresolved (ns : Namespace) (visits : List Visit) : Nat :=
  unanswered ns.imported? (visits.flatMap (requests ns))

theorem unresolved_cons (v : Visit) (rest : List Visit) :
    unresolved ns (v :: rest) =
      unanswered ns.imported? (requests ns v) + unresolved ns rest := by
  unfold unresolved unanswered
  rw [List.flatMap_cons, List.countP_append]

/-- The names that the tables of a namespace answer are bound where they are asked for. -/
def Closed (ns : Namespace) (visits : List Visit) : Prop :=
  ∀ v ∈ visits, ∀ r ∈ requests ns v,
    (r.answer ns.imported?).isSome → (ns.imported? v.scopes.current r.name).isSome

/-- The scopes at some visits have tables. -/
def HaveTables (ns : Namespace) (visits : List Visit) : Prop :=
  ∀ v ∈ visits, (ns.scope? v.scopes.current).isSome

/-- Whether scopes have tables is seen in the frame. -/
theorem HaveTables.congr {visits : List Visit} (h : ns'.withoutImports = ns.withoutImports)
    (ht : HaveTables ns visits) : HaveTables ns' visits := fun v hv ↦ by
  rw [← Namespace.isSome_scope?_withoutImports, h, Namespace.isSome_scope?_withoutImports]
  exact ht v hv

/-- The traversal of some visits. -/
def run (visits : List Visit) (p : Progress) : Progress :=
  visits.foldl step p

/-- A traversal only adds names to the tables. -/
theorem grows_run (visits : List Visit) (p : Progress) : Grows p.ns (run visits p).ns := by
  induction visits generalizing p with
  | nil => exact .refl _
  | cons v rest ih => exact (grows_step p v).trans (ih (step p v))

/-- Fewer requests of all visits are open in larger tables. -/
theorem Grows.unresolved_le (h : Grows ns ns') (visits : List Visit) :
    unresolved ns' visits ≤ unresolved ns visits := by
  unfold unresolved
  rw [requests_congr h.frame]
  exact h.unanswered_le _

/-- A statement counts its requests that are open in the tables before it. -/
theorem count_step (p : Progress) (visit : Visit) :
    (step p visit).count = p.count + unanswered p.ns.imported? (requests p.ns visit) := by
  rw [step_eq]

theorem run_cons (v : Visit) (rest : List Visit) (p : Progress) :
    run (v :: rest) p = run rest (step p v) :=
  rfl

/-- What a traversal counts is at most what was open before it. -/
theorem count_le_unresolved (visits : List Visit) (p : Progress) :
    (run visits p).count ≤ p.count + unresolved p.ns visits := by
  induction visits generalizing p with
  | nil => exact Nat.le_refl _
  | cons v rest ih =>
    have hrest := ih (step p v)
    have hgrow := (grows_step p v).unresolved_le rest
    rw [count_step] at hrest
    rw [run_cons, unresolved_cons]
    omega

/-- What a traversal counts is at least what is open after it. -/
theorem unresolved_le_count (visits : List Visit) (p : Progress) :
    p.count + unresolved (run visits p).ns visits ≤ (run visits p).count := by
  induction visits generalizing p with
  | nil => exact Nat.le_refl _
  | cons v rest ih =>
    have hrest := ih (step p v)
    have hgrow := (grows_step p v).trans (grows_run rest (step p v))
    have hhead := hgrow.unanswered_le (requests p.ns v)
    rw [count_step] at hrest
    rw [run_cons, unresolved_cons, requests_congr hgrow.frame]
    omega

/-- **Closing.** If a traversal counts no more than what is open after it, then the tables after
it are closed: each statement could answer, when its turn came, all that the final tables
answer. -/
theorem closed_of_count_eq {visits : List Visit} {p : Progress} (ht : HaveTables p.ns visits)
    (h : (run visits p).count = p.count + unresolved (run visits p).ns visits) :
    Closed (run visits p).ns visits := by
  induction visits generalizing p with
  | nil => exact fun v hv ↦ by cases hv
  | cons v rest ih =>
    have hgrow := (grows_step p v).trans (grows_run rest (step p v))
    have hle := hgrow.unanswered_le (requests p.ns v)
    have hrest := unresolved_le_count rest (step p v)
    rw [run_cons, unresolved_cons, requests_congr hgrow.frame] at h
    rw [count_step] at hrest
    -- neither the statement nor the rest of the traversal counts more than is open in the end
    have hhead : unanswered (run rest (step p v)).ns.imported? (requests p.ns v) =
        unanswered p.ns.imported? (requests p.ns v) := by
      omega
    have htail : (run rest (step p v)).count =
        (step p v).count + unresolved (run rest (step p v)).ns rest := by
      rw [count_step]
      omega
    have ht' : HaveTables (step p v).ns rest :=
      HaveTables.congr (grows_step p v).frame fun w hw ↦ ht w (List.mem_cons_of_mem _ hw)
    intro w hw r hr hs
    rcases List.mem_cons.1 hw with rfl | hw
    · rw [run_cons, requests_congr hgrow.frame] at hr
      have hthen := hgrow.answer_of_unanswered_eq hhead hr hs
      exact (grows_run rest (step p w)).bound _ _
        (isSome_imported?_step (ht w List.mem_cons_self) hr hthen)
    · exact ih ht' htail w hw r hr hs

/-- **Soundness of a traversal.** What holds of all entries, and passes from the answers to a
statement's requests to what the statement binds, holds of all entries afterwards. -/
theorem run_sound {holds : Id → String → QualName → Prop} {visits : List Visit} {p : Progress}
    (hvisits : ∀ v ∈ visits, ∀ r ∈ requests p.ns v, ∀ q,
      r.known = some q ∨ (∃ e, r.entry = some e ∧ holds e.1 e.2 q) →
        holds v.scopes.current r.name q)
    (hp : ∀ id name q, p.ns.imported? id name = some q → holds id name q)
    {id : Id} {name : String} {q : QualName}
    (h : (run visits p).ns.imported? id name = some q) : holds id name q := by
  induction visits generalizing p with
  | nil => exact hp id name q h
  | cons v rest ih =>
    refine ih ?_ ?_ h
    · rw [requests_congr (grows_step p v).frame]
      exact fun w hw ↦ hvisits w (List.mem_cons_of_mem _ hw)
    · intro id name q h
      rcases imported?_step_eq_some h with h | ⟨rfl, r, hr, rfl, hanswer⟩
      · exact hp id name q h
      · refine hvisits v List.mem_cons_self r hr q ?_
        rcases r.eq_of_answer hanswer with ⟨e, he, hq⟩ | hknown
        · exact .inr ⟨e, he, hp e.1 e.2 q hq⟩
        · exact .inl hknown

/-- A traversal of closed tables binds no new name. -/
theorem isSome_imported?_run_iff {visits : List Visit} {p : Progress}
    (hclosed : Closed p.ns visits) {id : Id} {name : String} :
    ((run visits p).ns.imported? id name).isSome ↔ (p.ns.imported? id name).isSome := by
  refine ⟨fun h ↦ ?_, (grows_run visits p).bound id name⟩
  obtain ⟨q, hq⟩ := Option.isSome_iff_exists.1 h
  refine run_sound (fun v hv r hr q hknown ↦ hclosed v hv r hr ?_)
    (fun id name q hq ↦ Option.isSome_iff_exists.2 ⟨q, hq⟩) hq
  rw [Request.isSome_answer_iff]
  rcases hknown with hknown | hentry
  · exact .inr (Option.isSome_iff_exists.2 ⟨q, hknown⟩)
  · exact .inl hentry

end Imports

end CodeAtlas
