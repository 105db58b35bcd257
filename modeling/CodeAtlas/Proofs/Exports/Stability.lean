import Mathlib.Data.List.Nodup
import CodeAtlas.Proofs.Exports.Settle
import CodeAtlas.Proofs.SingleModule
import CodeAtlas.Proofs.SyntaxTrees

/-!
# Export lists after resolution

The repetition ends when two counts agree, and counts say how many references are not known, not
what is known. So a further traversal may still change lists. It never loses one. It changes none
exactly if each file, read with the lists as they are, gives its component the list it has
(`Knowledge.lists_traverse_eq_iff`).

## Plain files

This holds where lists are written in a plain way (`Plain`): a file writes its list out, or it
assigns a single sum of lists that were imported before. Whether a file is plain can be decided from
its statements alone. The list of a plain file does not depend on what was known under names before
(`Plain.pending_congr`), and it is whole when it becomes known and stays as it is
(`Knowledge.kept_traverse`).

## Equal counts

With more known an action counts less. If it counts as much, then no list has become known by it
(`isSome_pending_eval`), and so for whole traversals: between two equal counts none becomes known
(`Knowledge.isSome_lists_of_count_eq`).

## A module whose list grows

A file that adds its own list to itself is not plain, and its list grows with each traversal, while
the counts are zero (`run_exports_of_growing_module`).
-/

namespace CodeAtlas

namespace Exports

/-! ### Plain files -/

/-- The operand is written in the file, or imported under one of these names. -/
def Operand.given (names : List String) : Operand → Bool
  | literal _ => true
  | imported name => name ∈ names

/-- The list after an action is written out in the file, where it may have been so before. -/
def Action.writes (before : Bool) : Action → Bool
  | set _ => true
  | sum operands => operands.all (·.given [])
  | extend _ | take .. => before

/-- The action imports a list. -/
def Action.takes : Action → Bool
  | take .. => true
  | set _ | sum _ | extend _ => false

/-- The list is one sum, of lists that are written in the file or were imported before it. -/
def sums (taken : List String) : List Action → Bool
  | .take _ names :: rest => sums (names ++ taken) rest
  | .sum operands :: rest => operands.all (·.given taken) && rest.all Action.takes
  | _ => false

/-- Files that have their list as a whole or not at all: it is written out in the end, or it is
one sum. -/
def Plain (actions : List Action) : Prop :=
  actions.foldl Action.writes true = true ∨ sums [] actions = true

instance (actions : List Action) : Decidable (Plain actions) :=
  inferInstanceAs (Decidable (_ ∨ _))

/-- A list that is imported, and then added to one that is written out. -/
example : Plain [.take 1 ["b"], .sum [.imported "b", .literal ["x"]]] := by decide

/-- What is known in the first lists is known, and the same, in the second. -/
def Kept {κ : Type} (lists lists' : κ → Option (List String)) : Prop :=
  ∀ k list, lists k = some list → lists' k = some list

variable {lists lists' : Lists} {aliases aliases' : Aliases} {r r' : Reading}
  {actions : List Action} {operands : List Operand} {names list : List String}

/-- Nothing is missing from a sum exactly if the lists of all operands are known. -/
theorem missing_eq_zero_iff :
    missing aliases operands = 0 ↔ ∀ o ∈ operands, ∃ l, o.value aliases = some l := by
  rw [missing, List.countP_eq_zero]
  refine forall₂_congr fun o _ ↦ ?_
  rw [← Option.isSome_iff_exists, Option.isNone_iff_eq_none, Option.isSome_iff_ne_none]

/-- A sum of known lists keeps its value where these lists are kept. -/
theorem total_of_kept (hgiven : operands.all (·.given names))
    (hkept : ∀ name ∈ names, ∀ l, aliases name = some l → aliases' name = some l)
    (hzero : missing aliases operands = 0) :
    missing aliases' operands = 0 ∧ total aliases' operands = total aliases operands := by
  have hvalue : ∀ o ∈ operands, ∃ l, o.value aliases = some l ∧ o.value aliases' = some l := by
    intro o ho
    obtain ⟨l, hl⟩ := missing_eq_zero_iff.1 hzero o ho
    cases o with
    | literal names => exact ⟨names, rfl, rfl⟩
    | imported name =>
      have hname := List.all_eq_true.1 hgiven _ ho
      exact ⟨l, hl, hkept name (of_decide_eq_true hname) l hl⟩
  refine ⟨missing_eq_zero_iff.2 fun o ho ↦ ?_, List.flatMap_congr fun o ho ↦ ?_⟩
  · obtain ⟨l, -, hl⟩ := hvalue o ho
    exact ⟨l, hl⟩
  · obtain ⟨l, hl, hl'⟩ := hvalue o ho
    rw [hl, hl']

/-! ### Lists that are written out -/

/-- Nothing is missing from a sum of lists that are written in the file. -/
theorem missing_of_given_nil (hgiven : operands.all (·.given [])) :
    missing aliases operands = 0 := by
  refine missing_eq_zero_iff.2 fun o ho ↦ ?_
  have ho' := List.all_eq_true.1 hgiven o ho
  cases o with
  | literal names => exact ⟨names, rfl⟩
  | imported name => simp [Operand.given] at ho'

/-- What is written out depends on the list before at most, and on that only if it was written out
too. -/
theorem pending_eval_of_writes {a : Action} {before : Bool} (h : a.writes before = true)
    (hpending : before = true → r.pending = r'.pending) :
    (a.eval lists r).pending = (a.eval lists' r').pending := by
  cases a with
  | set names => rfl
  | sum operands =>
    have hzero : missing r.aliases operands = 0 := missing_of_given_nil h
    have ⟨hzero', htotal⟩ : missing r'.aliases operands = 0 ∧ total r'.aliases operands = _ :=
      total_of_kept h (fun _ hname ↦ nomatch hname) hzero
    simp only [Action.eval, hzero, hzero', if_true, htotal]
  | extend names =>
    simp only [Action.eval, hpending h]
    cases r'.pending <;> rfl
  | take source names => exact hpending h

/-- A list that is written out in the end does not depend on what is known. -/
theorem pending_foldl_of_writes {before : Bool} (h : actions.foldl Action.writes before = true)
    (hpending : before = true → r.pending = r'.pending) :
    (actions.foldl (Action.eval lists) r).pending =
      (actions.foldl (Action.eval lists') r').pending := by
  induction actions generalizing before r r' with
  | nil => exact hpending h
  | cons a rest ih => exact ih h fun hwrites ↦ pending_eval_of_writes hwrites hpending

/-! ### Lists that are summed -/

/-- Imports make no list. -/
theorem pending_foldl_of_takes (h : actions.all Action.takes) (r : Reading) :
    (actions.foldl (Action.eval lists) r).pending = r.pending := by
  induction actions generalizing r with
  | nil => rfl
  | cons a rest ih =>
    rw [List.all_cons, Bool.and_eq_true] at h
    cases a with
    | set | sum | extend => cases h.1
    | take source names => exact ih h.2 (Action.eval lists r (.take source names))

/-- A sum that is found stays while the lists that it adds are kept. -/
theorem pending_kept_of_sums {taken : List String} (h : sums taken actions = true)
    (hlists : Kept lists lists')
    (hkept : ∀ name ∈ taken, ∀ l, r.aliases name = some l → r'.aliases name = some l)
    (hnone : r.pending = none)
    (hpending : (actions.foldl (Action.eval lists) r).pending = some list) :
    (actions.foldl (Action.eval lists') r').pending = some list := by
  induction actions generalizing taken r r' with
  | nil => cases h
  | cons a rest ih =>
    cases a with
    | set | extend => cases h
    | take source names =>
      refine ih (r := Action.eval lists r (.take source names)) h (fun name hname ↦ ?_)
        hnone hpending
      simp only [Action.eval]
      split
      · exact hlists source
      · next hnew => exact hkept name ((List.mem_append.1 hname).resolve_left hnew)
    | sum operands =>
      rw [sums, Bool.and_eq_true] at h
      rw [List.foldl_cons, pending_foldl_of_takes h.2, Action.eval] at hpending
      rw [List.foldl_cons, pending_foldl_of_takes h.2, Action.eval]
      split at hpending
      · next hzero =>
        obtain ⟨hzero', htotal⟩ := total_of_kept h.1 hkept hzero
        rw [if_pos hzero', htotal]
        exact hpending
      · rw [hnone] at hpending
        cases hpending

/-! ### One plain file -/

namespace Plain

/-- The list of a plain file stays, once it is known, while the lists of others are kept. -/
theorem pending_kept (h : Plain actions) (hlists : Kept lists lists')
    (hpending : (evaluate lists actions aliases).pending = some list) :
    (evaluate lists' actions aliases').pending = some list := by
  rcases h with h | h
  · have hsame : (evaluate lists actions aliases).pending =
        (evaluate lists' actions aliases').pending := pending_foldl_of_writes h fun _ ↦ rfl
    exact hsame.symm.trans hpending
  · exact pending_kept_of_sums h hlists (fun _ hname ↦ nomatch hname) rfl hpending

/-- The list of a plain file does not depend on the lists that are known under names. -/
theorem pending_congr (h : Plain actions) :
    (evaluate lists actions aliases).pending = (evaluate lists actions aliases').pending :=
  Option.ext fun _ ↦
    ⟨h.pending_kept fun _ _ hlist ↦ hlist, h.pending_kept fun _ _ hlist ↦ hlist⟩

end Plain

/-! ### Equal counts -/

/-- If an action counts as much with more known, then there is a list after it only if there is one
with less known. -/
theorem isSome_pending_eval {a : Action} (h : r.Within r')
    (hcount : (a.eval lists' r').count + r.count = (a.eval lists r).count + r'.count)
    (hpending : r'.pending.isSome → r.pending.isSome) :
    (a.eval lists' r').pending.isSome → (a.eval lists r).pending.isSome := by
  cases a with
  | set names => exact fun _ ↦ rfl
  | sum operands =>
    have hle := missing_le h.aliases operands
    simp only [Action.eval] at hcount ⊢
    by_cases hzero : missing r.aliases operands = 0
    · rw [if_pos hzero]
      exact fun _ ↦ rfl
    · rw [if_neg hzero] at hcount ⊢
      have hzero' : missing r'.aliases operands ≠ 0 := by
        intro hzero'
        rw [if_pos hzero'] at hcount
        dsimp only at hcount
        omega
      rw [if_neg hzero']
      exact hpending
  | extend names =>
    simp only [Action.eval]
    cases r.pending <;> exact fun _ ↦ rfl
  | take source names => exact hpending

/-- If actions count as much with more known, then there is a list after them only if there is one
with less known. -/
theorem isSome_pending_foldl (hlists : Within lists lists') (h : r.Within r')
    (hcount : (actions.foldl (Action.eval lists') r').count + r.count =
      (actions.foldl (Action.eval lists) r).count + r'.count)
    (hpending : r'.pending.isSome → r.pending.isSome) :
    (actions.foldl (Action.eval lists') r').pending.isSome →
      (actions.foldl (Action.eval lists) r).pending.isSome := by
  induction actions generalizing r r' with
  | nil => exact hpending
  | cons a rest ih =>
    -- counts of single actions cannot rise, so they agree one by one
    obtain ⟨hwithin, hfirst⟩ := a.eval_mono hlists h
    have hrest := (Action.foldl_mono hlists hwithin rest).2
    rw [List.foldl_cons, List.foldl_cons] at hcount
    exact ih hwithin (by omega) (isSome_pending_eval h (by omega) hpending)

theorem isSome_pending_evaluate (hlists : Within lists lists') (haliases : Within aliases aliases')
    (hcount : (evaluate lists' actions aliases').count = (evaluate lists actions aliases).count) :
    (evaluate lists' actions aliases').pending.isSome →
      (evaluate lists actions aliases).pending.isSome :=
  isSome_pending_foldl hlists (Reading.within_start haliases) hcount fun hnone ↦ hnone

/-! ### One traversal -/

namespace Knowledge

variable {k k' : Knowledge} {work : List (Id × List Action)} {w : Id × List Action} {id : Id}

/-- The pass over a file is seen in the list of its component only. -/
theorem lists_pass (k : Knowledge) (w : Id × List Action) (id : Id) :
    (k.pass w.1 w.2).lists id =
      if id = w.1 then (evaluate k.lists w.2 (k.aliases w.1)).pending.or (k.lists w.1)
      else k.lists id :=
  Function.update_apply ..

/-- The lists of components whose files are not read stay as they are. -/
theorem lists_traverse_of_notMem (h : id ∉ work.map Prod.fst) :
    (k.traverse work).lists id = k.lists id := by
  induction work generalizing k with
  | nil => rfl
  | cons w rest ih =>
    rw [List.map_cons, List.mem_cons, not_or] at h
    exact (ih h.2).trans ((lists_pass k w id).trans (if_neg h.1))

/-- A list that is known is not lost. -/
theorem isSome_lists_traverse (h : (k.lists id).isSome) (work : List (Id × List Action)) :
    ((k.traverse work).lists id).isSome := by
  induction work generalizing k with
  | nil => exact h
  | cons w rest ih =>
    refine ih (k := k.pass w.1 w.2) ?_
    rw [lists_pass]
    split
    · next hid =>
      rw [Option.isSome_or, ← hid, h, Bool.or_true]
    · exact h

/-- **Equal counts.** If files count as much with more known, then each list that is known after
reading them was known before, or is known with less known as well. -/
theorem isSome_lists_of_count_eq (h : k.Within k')
    (hcount : (k'.traverse work).count + k.count = (k.traverse work).count + k'.count)
    (hsome : ((k'.traverse work).lists id).isSome) :
    (k'.lists id).isSome ∨ ((k.traverse work).lists id).isSome := by
  induction work generalizing k k' with
  | nil => exact .inl hsome
  | cons w rest ih =>
    obtain ⟨hwithin, hpass⟩ := pass_mono h w.1 w.2
    have hrest := (traverse_mono hwithin rest).2
    have hcount : ((k'.pass w.1 w.2).traverse rest).count + k.count =
        ((k.pass w.1 w.2).traverse rest).count + k'.count := hcount
    have hfirst : (k'.pass w.1 w.2).count + k.count = (k.pass w.1 w.2).count + k'.count := by omega
    rcases ih hwithin (by omega) hsome with hpassed | hlater
    · rw [lists_pass] at hpassed
      split at hpassed
      · next hid =>
        rw [Option.isSome_or, Bool.or_eq_true] at hpassed
        rcases hpassed with hpending | hknown
        · simp only [pass] at hfirst
          have hbefore := isSome_pending_evaluate h.lists (h.aliases w.1) (by omega) hpending
          refine .inr (isSome_lists_traverse ?_ rest)
          rw [lists_pass, if_pos hid, Option.isSome_or, hbefore, Bool.true_or]
        · exact .inl (hid ▸ hknown)
      · exact .inl hpassed
    · exact .inr hlater

/-- Each file, read with the lists as they are, gives its component the list it has, or none. -/
def Agrees (k : Knowledge) (work : List (Id × List Action)) : Prop :=
  ∀ w ∈ work, ∀ list, (evaluate k.lists w.2 (k.aliases w.1)).pending = some list →
    k.lists w.1 = some list

/-- The pass over a file changes no list exactly if it gives its component the list it has, or none.
-/
theorem lists_pass_eq_iff :
    (k.pass w.1 w.2).lists = k.lists ↔
      ∀ list, (evaluate k.lists w.2 (k.aliases w.1)).pending = some list →
        k.lists w.1 = some list := by
  refine ⟨fun h list hlist ↦ ?_, fun h ↦ funext fun id ↦ ?_⟩
  · rw [← h, lists_pass, if_pos rfl, hlist, Option.some_or]
  · rw [lists_pass]
    split
    · next hid =>
      rw [hid]
      cases hlist : (evaluate k.lists w.2 (k.aliases w.1)).pending with
      | none => exact Option.none_or
      | some list => exact Option.some_or.trans (h list hlist).symm
    · rfl

/-- Reading a file changes nothing for files of other components, unless it changes the lists. -/
theorem agrees_pass_iff (h : (k.pass w.1 w.2).lists = k.lists) (hw : w.1 ∉ work.map Prod.fst) :
    (k.pass w.1 w.2).Agrees work ↔ k.Agrees work := by
  refine forall₂_congr fun v hv ↦ ?_
  have hne : v.1 ≠ w.1 := fun heq ↦ hw (heq ▸ List.mem_map_of_mem hv)
  have haliases : (k.pass w.1 w.2).aliases v.1 = k.aliases v.1 := Function.update_of_ne hne ..
  rw [h, haliases]

/-- **Unchanged lists.** A traversal changes no list exactly if the files agree with the lists. -/
theorem lists_traverse_eq_iff (hnodup : (work.map Prod.fst).Nodup) :
    (k.traverse work).lists = k.lists ↔ k.Agrees work := by
  induction work generalizing k with
  | nil => exact iff_of_true rfl fun _ hw ↦ nomatch hw
  | cons w rest ih =>
    rw [List.map_cons, List.nodup_cons] at hnodup
    have hcons : k.Agrees (w :: rest) ↔ (k.pass w.1 w.2).lists = k.lists ∧ k.Agrees rest := by
      rw [lists_pass_eq_iff, Agrees, List.forall_mem_cons]
      rfl
    show ((k.pass w.1 w.2).traverse rest).lists = k.lists ↔ _
    rw [hcons]
    constructor
    · intro h
      -- no later file has this component, so its list is not changed back
      have hpass : (k.pass w.1 w.2).lists = k.lists := by
        funext id
        by_cases hid : id = w.1
        · rw [← h, hid, lists_traverse_of_notMem hnodup.1]
        · rw [lists_pass, if_neg hid]
      exact ⟨hpass, (agrees_pass_iff hpass hnodup.1).1 ((ih hnodup.2).1 (h.trans hpass.symm))⟩
    · rintro ⟨hpass, hagrees⟩
      exact ((ih hnodup.2).2 ((agrees_pass_iff hpass hnodup.1).2 hagrees)).trans hpass

/-! ### Traversals of plain files -/

/-- Each list that is known is the one that the file of the component gives. -/
def Whole (k : Knowledge) (work : List (Id × List Action)) : Prop :=
  ∀ w ∈ work, ∀ list, k.lists w.1 = some list →
    (evaluate k.lists w.2 (k.aliases w.1)).pending = some list

theorem Whole.reset (h : k.Whole work) : k.reset.Whole work :=
  h

/-- The pass over a plain file keeps all lists that are known. -/
theorem kept_pass (h : k.Whole work) (hw : w ∈ work) : Kept k.lists (k.pass w.1 w.2).lists := by
  intro id list hlist
  rw [lists_pass]
  split
  · next hid => rw [h w hw list (hid ▸ hlist), Option.some_or]
  · exact hlist

/-- After the pass over a plain file each list that is known is still the one that the file gives.
-/
theorem whole_pass (hplain : ∀ w ∈ work, Plain w.2) (hnodup : (work.map Prod.fst).Nodup)
    (h : k.Whole work) (hw : w ∈ work) : (k.pass w.1 w.2).Whole work := by
  intro v hv list hlist
  suffices hbefore : (evaluate k.lists v.2 (k.aliases v.1)).pending = some list from
    (hplain v hv).pending_kept (kept_pass h hw) hbefore
  rw [lists_pass] at hlist
  split at hlist
  · next hid =>
    obtain rfl : v = w := List.inj_on_of_nodup_map hnodup hv hw hid
    cases hpending : (evaluate k.lists v.2 (k.aliases v.1)).pending with
    | none =>
      rw [hpending, Option.none_or] at hlist
      exact hpending.symm.trans (h v hv list hlist)
    | some =>
      rw [hpending, Option.some_or] at hlist
      exact hlist
  · exact h v hv list hlist

/-- **Lists stay.** Traversals of plain files make lists known and never change one. -/
theorem kept_traverse (hplain : ∀ w ∈ work, Plain w.2) (hnodup : (work.map Prod.fst).Nodup)
    (h : k.Whole work) :
    Kept k.lists (k.traverse work).lists ∧ (k.traverse work).Whole work := by
  have hfiles : ∀ files : List (Id × List Action), (∀ w ∈ files, w ∈ work) →
      ∀ k : Knowledge, k.Whole work →
        Kept k.lists (k.traverse files).lists ∧ (k.traverse files).Whole work := by
    intro files
    induction files with
    | nil => exact fun _ k hk ↦ ⟨fun _ _ hlist ↦ hlist, hk⟩
    | cons w rest ih =>
      intro hmem k hk
      have hw := hmem w List.mem_cons_self
      obtain ⟨hkept, hwhole⟩ := ih (fun v hv ↦ hmem v (List.mem_cons_of_mem _ hv)) _
        (whole_pass hplain hnodup hk hw)
      exact ⟨fun id list hlist ↦ hkept id list (kept_pass hk hw id list hlist), hwhole⟩
  exact hfiles work (fun _ hw ↦ hw) k h

/-- What plain files do to the lists does not depend on the lists known under names. -/
theorem lists_traverse_congr (hplain : ∀ w ∈ work, Plain w.2) (h : k.lists = k'.lists) :
    (k.traverse work).lists = (k'.traverse work).lists := by
  induction work generalizing k k' with
  | nil => exact h
  | cons w rest ih =>
    have hpass : (k.pass w.1 w.2).lists = (k'.pass w.1 w.2).lists := by
      funext id
      rw [lists_pass, lists_pass, h, (hplain w List.mem_cons_self).pending_congr]
    exact ih (fun v hv ↦ hplain v (List.mem_cons_of_mem _ hv)) hpass

end Knowledge

/-! ### The traversals of a project -/

variable {project : Project} {built ns : Namespace} {settled : Settled}

namespace Prepared

theorem exports?_traversals (h : Prepared project ns) (n : Nat) :
    (project.traversals pass ns (n + 1)).ns.exports? =
      ((knowledge (project.traversals pass ns n)).reset.traverse (work project ns)).lists :=
  congrArg Knowledge.lists (h.knowledge_traversals n).2

theorem count_traversals (h : Prepared project ns) (n : Nat) :
    (project.traversals pass ns (n + 1)).count =
      ((knowledge (project.traversals pass ns n)).reset.traverse (work project ns)).count :=
  congrArg Knowledge.count (h.knowledge_traversals n).2

/-- A traversal that counts as many as the one before makes no list known. -/
theorem isSome_exports?_of_count_eq (h : Prepared project ns) {n : Nat}
    (hcount : (project.traversals pass ns (n + 1 + 1)).count =
      (project.traversals pass ns (n + 1)).count) {id : Id}
    (hsome : ((project.traversals pass ns (n + 1 + 1)).ns.exports? id).isSome) :
    ((project.traversals pass ns (n + 1)).ns.exports? id).isSome := by
  rw [h.count_traversals, h.count_traversals] at hcount
  rw [h.exports?_traversals] at hsome
  rcases Knowledge.isSome_lists_of_count_eq (h.within_traversals n).reset hcount hsome with
    hknown | hknown
  · exact hknown
  · rw [h.exports?_traversals]
    exact hknown

/-- After some traversals of plain files each list that is known is the one that the file gives. -/
theorem whole_traversals (h : Prepared project ns) (hplain : ∀ w ∈ work project ns, Plain w.2)
    (hnodup : ((work project ns).map Prod.fst).Nodup) (n : Nat) :
    (knowledge (project.traversals pass ns n)).Whole (work project ns) := by
  induction n with
  | zero =>
    intro w _ list hlist
    cases hlist.symm.trans (h.lists_eq_none w.1).1
  | succ n ih =>
    rw [(h.knowledge_traversals n).2]
    exact (Knowledge.kept_traverse hplain hnodup ih.reset).2

/-- A traversal of plain files that counts as many as the one before changes no list. -/
theorem exports?_of_count_eq (h : Prepared project ns) (hplain : ∀ w ∈ work project ns, Plain w.2)
    (hnodup : ((work project ns).map Prod.fst).Nodup) {n : Nat}
    (hcount : (project.traversals pass ns (n + 1 + 1)).count =
      (project.traversals pass ns (n + 1)).count) :
    (project.traversals pass ns (n + 1 + 1)).ns.exports? =
      (project.traversals pass ns (n + 1)).ns.exports? := by
  have hwhole := (h.whole_traversals hplain hnodup (n + 1)).reset
  funext id
  cases hbefore : (project.traversals pass ns (n + 1)).ns.exports? id with
  | none =>
    rw [← Option.not_isSome_iff_eq_none]
    intro hsome
    have hknown := h.isSome_exports?_of_count_eq hcount hsome
    rw [hbefore] at hknown
    cases hknown
  | some list =>
    rw [h.exports?_traversals]
    exact (Knowledge.kept_traverse hplain hnodup hwhole).1 id list hbefore

/-- After the repetition has ended, a further traversal of plain files changes no list. -/
theorem exports?_of_settles (h : Prepared project ns) (hplain : ∀ w ∈ work project ns, Plain w.2)
    (hnodup : ((work project ns).map Prod.fst).Nodup) (hsettles : project.Settles pass ns settled) :
    (project.traversals pass ns (settled.iterations + 1)).ns.exports? =
      (project.traversals pass ns settled.iterations).ns.exports? := by
  have hrepeats := hsettles.repeats
  obtain ⟨n, hn⟩ := Nat.exists_eq_add_one.2 hsettles.pos
  rw [hn] at hrepeats ⊢
  cases n with
  | zero =>
    -- the first traversal counted nothing, so the second does
    have hzero : (project.traversals pass ns (0 + 1)).count = 0 := hrepeats
    have hle : (project.traversals pass ns (0 + 1 + 1)).count ≤ _ := h.count_traversals_le 0
    exact h.exports?_of_count_eq hplain hnodup (by omega)
  | succ n =>
    rw [h.exports?_traversals, h.exports?_traversals]
    exact Knowledge.lists_traverse_congr hplain (h.exports?_of_count_eq hplain hnodup hrepeats)

end Prepared

/-! ### A module whose list grows -/

/-- A module that adds its own list to itself. -/
def growText : String :=
  "def h():0\n__all__=['a']\nfrom p import __all__ as b\n__all__=b+['x']\n"

/-- The statements of the module. -/
def growStatements : List Stmt :=
  let all : Expr := .name ⟨"__all__", by decide⟩
  [.funcDef ⟨⟨"h", by decide⟩, [], [], [], []⟩ [.simple [.number "0" true]],
    .simple [.assign "__all__=['a']" all none
      (some (.display "['a']" .list [.string "'a'" [.literal "a"]]))],
    .importFrom ⟨some "p", 0, false, [⟨"__all__", some "b"⟩]⟩,
    .simple [.assign "__all__=b+['x']" all none
      (some (.binary "b+['x']" (.name ⟨"b", by decide⟩) "+"
        (.display "['x']" .list [.string "'x'" [.literal "x"]])))]]

theorem ofText?_growText : Stmt.ofText? growText = some growStatements := by
  decide +kernel

/-- What some traversals of the module lead to. -/
def growRun : Nat → Progress :=
  moduleRun pass growStatements (moduleNamespace "p" growStatements)

theorem oneModule_growText : OneModule (singleModule "p" growText) growStatements :=
  oneModule_singleModule "p" ofText?_growText

theorem build_growText :
    (singleModule "p" growText).build = .ok (moduleNamespace "p" growStatements) :=
  oneModule_growText.build_eq (by decide +kernel)

/-- The traversals of the module, one after another. -/
theorem traversals_growText (n : Nat) :
    (singleModule "p" growText).traversals pass (moduleNamespace "p" growStatements) n =
      growRun n :=
  oneModule_growText.traversals_eq
    (fun component file p ↦ (sameScopes_pass component file p).sources) rfl n

/-- The counts are one, zero and zero. -/
theorem iterations_growText {settled : Settled}
    (h : (singleModule "p" growText).Settles pass (moduleNamespace "p" growStatements) settled) :
    settled = ⟨3, 0⟩ := by
  have hfirst : (growRun 1).count = 1 := by decide +kernel
  have hsecond : (growRun 2).count = 0 := by decide +kernel
  have hthird : (growRun 3).count = 0 := by decide +kernel
  have hiterations : settled.iterations = 2 + 1 := by
    refine h.iterations_eq ?_ fun m hm ↦ ?_
    · rw [traversals_growText, traversals_growText, hthird, hsecond]
    · rw [traversals_growText, traversals_growText]
      obtain rfl | rfl : m = 0 ∨ m = 1 := by omega
      · rw [hfirst]
        exact Nat.one_ne_zero
      · rw [hsecond, hfirst]
        exact Nat.zero_ne_one
  have hunresolved := h.unresolved
  rw [hiterations, traversals_growText, hthird] at hunresolved
  obtain ⟨iterations, unresolved⟩ := settled
  exact congrArg₂ Settled.mk hiterations hunresolved

/-- The repetition ends after three traversals of the module, with nothing unresolved. -/
theorem resolve_growText :
    (singleModule "p" growText).resolve pass (moduleNamespace "p" growStatements) =
      .ok ((growRun 3).ns, ⟨3, 0⟩) := by
  have hread :
      (singleModule "p" growText).Readable (moduleNamespace "p" growStatements).sources := by
    intro f hf
    obtain rfl := List.mem_singleton.1 hf
    exact ⟨growStatements, oneModule_growText.source_eq⟩
  obtain ⟨settled, hsettles⟩ := (prepared_of_build build_growText hread).exists_settles
  have hresolve := hsettles.resolve_eq
  rw [iterations_growText hsettles, traversals_growText] at hresolve
  exact hresolve

/-! ### Main result -/

/-- **One more traversal.** After export lists were resolved a further traversal succeeds, counts no
more than was reported, and loses no list. If it counts as many, it makes no list known either. It
changes no list exactly if each file, read with the lists as they are, gives its component the list
it has, and so if all files are plain. -/
theorem run_exports_after_resolve (hbuild : project.build = .ok built)
    (hresolve : project.resolve pass built = .ok (ns, settled)) :
    ∃ next : Progress,
      project.run pass { ns } = (next, none) ∧
      next.count ≤ settled.unresolved ∧
      (∀ id, (ns.exports? id).isSome → (next.ns.exports? id).isSome) ∧
      (next.count = settled.unresolved →
        ∀ id, (next.ns.exports? id).isSome → (ns.exports? id).isSome) ∧
      (next.ns.exports? = ns.exports? ↔ (knowledge { ns }).Agrees (work project ns)) ∧
      ((∀ w ∈ work project ns, Plain w.2) → next.ns.exports? = ns.exports?) := by
  have h := prepared_of_build hbuild (Project.readable_of_resolve hresolve)
  have hnodup : ((work project built).map Prod.fst).Nodup := by
    rw [work, List.map_map]
    exact Namespace.nodup_sources_of_build hbuild
  obtain ⟨_, hsettles⟩ := h.exists_settles
  cases hsettles.resolve_eq.symm.trans hresolve
  obtain ⟨n, hn⟩ := Nat.exists_eq_add_one.2 hsettles.pos
  have hwork : work project (project.traversals pass built settled.iterations).ns =
      work project built := work_congr (h.sameScopes_traversals _).toSameOutline
  refine ⟨project.traversals pass built (settled.iterations + 1),
    Project.run_traversals hsettles.succeeds _, ?_, (h.within_traversals _).lists,
    fun hcount id ↦ ?_, ?_, fun hplain ↦ ?_⟩
  · rw [hsettles.unresolved, hn]
    exact h.count_traversals_le n
  · rw [hsettles.unresolved, hn] at hcount
    rw [hn]
    exact h.isSome_exports?_of_count_eq hcount
  · rw [h.exports?_traversals, hwork]
    exact Knowledge.lists_traverse_eq_iff hnodup
  · rw [hwork] at hplain
    exact h.exports?_of_settles hplain hnodup hsettles

/-- In the growing module the further traversal counts nothing, as the one before did, and still
adds an entry to the list. So the file does not agree with the list, and is not plain. -/
theorem run_exports_of_growing_module :
    let project := singleModule "p" growText
    project.build = .ok (moduleNamespace "p" growStatements) ∧
      project.resolve pass (moduleNamespace "p" growStatements) = .ok ((growRun 3).ns, ⟨3, 0⟩) ∧
      (growRun 3).ns.exports? 0 = some ["a", "x", "x"] ∧
      ∃ next : Progress,
        project.run pass { ns := (growRun 3).ns } = (next, none) ∧
        next.count = 0 ∧
        (∀ id, (next.ns.exports? id).isSome ↔ ((growRun 3).ns.exports? id).isSome) ∧
        next.ns.exports? 0 = some ["a", "x", "x", "x"] ∧
        ¬ (knowledge { ns := (growRun 3).ns }).Agrees (work project (growRun 3).ns) ∧
        ¬ ∀ w ∈ work project (growRun 3).ns, Plain w.2 := by
  have hbefore : (growRun 3).ns.exports? 0 = some ["a", "x", "x"] := by decide +kernel
  have hafter : (growRun 4).ns.exports? 0 = some ["a", "x", "x", "x"] := by decide +kernel
  refine ⟨build_growText, resolve_growText, hbefore, ?_⟩
  obtain ⟨next, hrun, hcount, hkept, hsame, hiff, hplain⟩ :=
    run_exports_after_resolve build_growText resolve_growText
  have hzero : next.count = 0 := Nat.le_zero.1 hcount
  have hnext : next = growRun 4 := by
    have htraversal := traversals_growText 4
    rw [Project.traversals, traversals_growText, hrun] at htraversal
    exact htraversal
  have hgrows : next.ns.exports? ≠ (growRun 3).ns.exports? := by
    intro heq
    have hlist := congrFun heq 0
    rw [hnext, hafter, hbefore] at hlist
    cases hlist
  exact ⟨next, hrun, hzero, fun id ↦ ⟨hsame hzero id, hkept id⟩, hnext ▸ hafter,
    fun hagrees ↦ hgrows (hiff.2 hagrees), fun h ↦ hgrows (hplain h)⟩

end Exports

end CodeAtlas
