import CodeAtlas.Proofs.Exports.Evaluation
import CodeAtlas.Proofs.Repetition

/-!
# Repeated resolution of export lists

Files refer to each other's export lists, and a list that is not known yet is counted. What becomes
known in a pass is not lost with the next one: reading the same files with more known gives more,
and counts less (`traverse_mono`).

## From what was built

Each traversal knows at least what the one before knew, although within one traversal a name may
come to stand for a list that is not known. Before the first traversal nothing is known, hence
counts never rise and the repetition ends (`Prepared.exists_settles`).

## From what earlier passes left behind

If something is known before the first traversal, left behind by passes over files that have changed
since, a name may stand for a known list until the file gives it another meaning. Then the second
traversal can count more than the first. It cannot know less: a name is given the same list each
time the file is read, and lists that are known stay known (`traverse_twice`). So from the second
traversal on counts do not rise in any namespace (`Usable.count_traversals_succ_le`).
-/

namespace CodeAtlas

namespace Exports

/-! ### More is known -/

/-- Under each name for which the first lists are known, the second are. -/
def Within {κ : Type} (lists lists' : κ → Option (List String)) : Prop :=
  ∀ k, (lists k).isSome → (lists' k).isSome

variable {lists lists' : Lists} {aliases aliases' : Aliases} {r r' : Reading} {k k' : Knowledge}

/-- The second reading knows what the first knows. -/
structure Reading.Within (r r' : Reading) : Prop where
  aliases : Exports.Within r.aliases r'.aliases
  pending : r.pending.isSome → r'.pending.isSome

/-- The second knows what the first knows. -/
structure Knowledge.Within (k k' : Knowledge) : Prop where
  lists : Exports.Within k.lists k'.lists
  aliases : ∀ id, Exports.Within (k.aliases id) (k'.aliases id)

theorem Reading.within_start (h : Exports.Within aliases aliases') :
    Reading.Within { aliases } { aliases := aliases' } :=
  ⟨h, fun hsome ↦ hsome⟩

theorem Knowledge.Within.reset (h : k.Within k') : k.reset.Within k'.reset :=
  ⟨h.lists, h.aliases⟩

/-- With more lists known, less is missing. -/
theorem missing_le (h : Within aliases aliases') (operands : List Operand) :
    missing aliases' operands ≤ missing aliases operands := by
  refine List.countP_mono_left fun o _ hnone ↦ ?_
  cases o with
  | literal names => exact hnone
  | imported name =>
    rw [Option.isNone_iff_eq_none, ← Option.not_isSome_iff_eq_none] at hnone ⊢
    exact fun hsome ↦ hnone (h name hsome)

/-- With more known, an action makes more known and counts less. -/
theorem Action.eval_mono (hlists : Within lists lists') (h : r.Within r') (a : Action) :
    (a.eval lists r).Within (a.eval lists' r') ∧
      (a.eval lists' r').count + r.count ≤ (a.eval lists r).count + r'.count := by
  cases a with
  | set names => exact ⟨⟨h.aliases, fun _ ↦ rfl⟩, Nat.le_of_eq (Nat.add_comm ..)⟩
  | sum operands =>
    have hle := missing_le h.aliases operands
    simp only [Action.eval]
    by_cases hzero' : missing r'.aliases operands = 0
    · rw [if_pos hzero']
      split
      · exact ⟨⟨h.aliases, fun _ ↦ rfl⟩, Nat.le_of_eq (Nat.add_comm ..)⟩
      · refine ⟨⟨h.aliases, fun _ ↦ rfl⟩, ?_⟩
        dsimp only
        omega
    · have hzero : missing r.aliases operands ≠ 0 := by omega
      rw [if_neg hzero, if_neg hzero']
      refine ⟨⟨h.aliases, h.pending⟩, ?_⟩
      dsimp only
      omega
  | extend names =>
    have hpending := h.pending
    simp only [Action.eval]
    cases hr : r.pending with
    | some list =>
      rw [hr] at hpending
      obtain ⟨list', hr'⟩ := Option.isSome_iff_exists.1 (hpending rfl)
      rw [hr']
      exact ⟨⟨h.aliases, fun _ ↦ rfl⟩, Nat.le_of_eq (Nat.add_comm ..)⟩
    | none =>
      refine ⟨⟨?_, fun _ ↦ ?_⟩, ?_⟩
      · cases r'.pending <;> exact h.aliases
      · cases r'.pending <;> rfl
      · cases r'.pending <;> dsimp only <;> omega
  | take source names =>
    refine ⟨⟨fun name hsome ↦ ?_, h.pending⟩, Nat.le_of_eq (Nat.add_comm ..)⟩
    simp only [Action.eval] at hsome ⊢
    split
    · next hname =>
      rw [if_pos hname] at hsome
      exact hlists source hsome
    · next hname =>
      rw [if_neg hname] at hsome
      exact h.aliases name hsome

/-- With more known, actions make more known and count less. -/
theorem Action.foldl_mono (hlists : Within lists lists') (h : r.Within r')
    (actions : List Action) :
    (actions.foldl (Action.eval lists) r).Within (actions.foldl (Action.eval lists') r') ∧
      (actions.foldl (Action.eval lists') r').count + r.count ≤
        (actions.foldl (Action.eval lists) r).count + r'.count := by
  induction actions generalizing r r' with
  | nil => exact ⟨h, Nat.le_of_eq (Nat.add_comm ..)⟩
  | cons a rest ih =>
    obtain ⟨hwithin, hcount⟩ := a.eval_mono hlists h
    obtain ⟨hrest, hcounts⟩ := ih hwithin
    refine ⟨hrest, ?_⟩
    rw [List.foldl_cons, List.foldl_cons]
    omega

/-- With more known, reading a file makes more known and counts less. -/
theorem evaluate_mono (hlists : Within lists lists') (haliases : Within aliases aliases')
    (actions : List Action) :
    (evaluate lists actions aliases).Within (evaluate lists' actions aliases') ∧
      (evaluate lists' actions aliases').count ≤ (evaluate lists actions aliases).count :=
  Action.foldl_mono hlists (Reading.within_start haliases) actions

namespace Knowledge

/-- With more known, the pass over a file makes more known and counts less. -/
theorem pass_mono (h : k.Within k') (component : Id) (actions : List Action) :
    (k.pass component actions).Within (k'.pass component actions) ∧
      (k'.pass component actions).count + k.count ≤
        (k.pass component actions).count + k'.count := by
  obtain ⟨hwithin, hcount⟩ := evaluate_mono h.lists (h.aliases component) actions
  refine ⟨⟨fun id hsome ↦ ?_, fun id ↦ ?_⟩, ?_⟩
  · simp only [pass, Function.update_apply] at hsome ⊢
    split at hsome
    · next hid =>
      rw [Option.isSome_or, Bool.or_eq_true] at hsome
      rw [if_pos hid, Option.isSome_or, Bool.or_eq_true]
      exact hsome.imp hwithin.pending (h.lists component)
    · next hid =>
      rw [if_neg hid]
      exact h.lists id hsome
  · simp only [pass, Function.update_apply]
    split
    · exact hwithin.aliases
    · exact h.aliases id
  · simp only [pass]
    omega

/-- **More known, more found.** Reading the same files with more known makes more known, and counts
less. -/
theorem traverse_mono (h : k.Within k') (work : List (Id × List Action)) :
    (k.traverse work).Within (k'.traverse work) ∧
      (k'.traverse work).count + k.count ≤ (k.traverse work).count + k'.count := by
  induction work generalizing k k' with
  | nil => exact ⟨h, Nat.le_of_eq (Nat.add_comm ..)⟩
  | cons w rest ih =>
    obtain ⟨hwithin, hcount⟩ := pass_mono h w.1 w.2
    obtain ⟨hrest, hcounts⟩ := ih hwithin
    refine ⟨hrest, ?_⟩
    simp only [traverse, List.foldl_cons] at hcounts ⊢
    omega

end Knowledge

/-! ### What earlier passes left behind -/

/-- Under each name the third aliases stand for what the first do, or for a list that is known if
the one of the second is. -/
def Retaken (old aliases aliases' : Aliases) : Prop :=
  ∀ name, aliases' name = old name ∨ ((aliases name).isSome → (aliases' name).isSome)

/-- Only taking over a list changes what names stand for. -/
theorem Action.take_or_aliases_eval (a : Action) :
    (∃ source names, a = .take source names) ∨
      ∀ (lists : Lists) (r : Reading), (a.eval lists r).aliases = r.aliases := by
  cases a with
  | take source names => exact .inl ⟨source, names, rfl⟩
  | set names => exact .inr fun _ _ ↦ rfl
  | sum operands =>
    refine .inr fun lists r ↦ ?_
    rw [Action.eval]
    split <;> rfl
  | extend names =>
    refine .inr fun lists r ↦ ?_
    rw [Action.eval]
    split <;> rfl

/-- An action gives a name the same list both times, which is known the second time if it was the
first time. -/
theorem Action.eval_retaken {old : Aliases} (hlists : Within lists lists')
    (h : Retaken old r.aliases r'.aliases) (a : Action) :
    Retaken old (a.eval lists r).aliases (a.eval lists' r').aliases := by
  rcases a.take_or_aliases_eval with ⟨source, names, rfl⟩ | hsame
  · intro name
    simp only [Action.eval]
    split
    · exact .inr (hlists source)
    · exact h name
  · rw [hsame, hsame]
    exact h

/-- Reading a file gives a name the same list both times, or leaves it as it was. -/
theorem evaluate_retaken {old : Aliases} (hlists : Within lists lists')
    (h : Retaken old aliases aliases') (actions : List Action) :
    Retaken old (evaluate lists actions aliases).aliases
      (evaluate lists' actions aliases').aliases := by
  have hfold : ∀ r r' : Reading, Retaken old r.aliases r'.aliases →
      Retaken old (actions.foldl (Action.eval lists) r).aliases
        (actions.foldl (Action.eval lists') r').aliases := by
    induction actions with
    | nil => exact fun _ _ h ↦ h
    | cons a rest ih => exact fun r r' h ↦ ih _ _ (a.eval_retaken hlists h)
  exact hfold _ _ h

namespace Knowledge

/-- Lists that are known stay known. -/
theorem within_lists_pass (k : Knowledge) (component : Id) (actions : List Action) :
    Exports.Within k.lists (k.pass component actions).lists := by
  intro id hsome
  simp only [pass, Function.update_apply]
  split
  · next hid =>
    rw [hid] at hsome
    rw [Option.isSome_or, hsome, Bool.or_true]
  · exact hsome

/-- Lists that are known stay known in a traversal. -/
theorem within_lists_traverse (k : Knowledge) (work : List (Id × List Action)) :
    Exports.Within k.lists (k.traverse work).lists := by
  induction work generalizing k with
  | nil => exact fun _ hsome ↦ hsome
  | cons w rest ih => exact fun id hsome ↦ ih _ id (k.within_lists_pass w.1 w.2 id hsome)

/-- The pass over a file gives a name the same list both times, or leaves it as it was. -/
theorem pass_retaken {old : Knowledge} (hlists : Exports.Within k.lists k'.lists)
    (h : ∀ id, Retaken (old.aliases id) (k.aliases id) (k'.aliases id)) (component : Id)
    (actions : List Action) (id : Id) :
    Retaken (old.aliases id) ((k.pass component actions).aliases id)
      ((k'.pass component actions).aliases id) := by
  simp only [pass, Function.update_apply]
  split
  · next hid =>
    rw [hid]
    exact evaluate_retaken hlists (h component) actions
  · exact h id

/-- Two readings of the same files, where the second starts with all lists known that the first ends
with. -/
theorem traverse_retaken {old : Knowledge} {work : List (Id × List Action)}
    (hlists : Exports.Within (k.traverse work).lists k'.lists)
    (h : ∀ id, Retaken (old.aliases id) (k.aliases id) (k'.aliases id)) (id : Id) :
    Retaken (old.aliases id) ((k.traverse work).aliases id) ((k'.traverse work).aliases id) := by
  induction work generalizing k k' with
  | nil => exact h id
  | cons w rest ih =>
    have hnow : Exports.Within k.lists k'.lists := fun id hsome ↦
      hlists id (k.within_lists_traverse (w :: rest) id hsome)
    refine @ih (k.pass w.1 w.2) (k'.pass w.1 w.2) (fun id hsome ↦ ?_)
      (pass_retaken hnow h w.1 w.2)
    exact k'.within_lists_pass w.1 w.2 id (hlists id hsome)

/-- **Reading files twice.** The second time at least as much is known at the end, whatever was
known before the first time. -/
theorem traverse_twice (k : Knowledge) (work : List (Id × List Action)) :
    (k.traverse work).Within ((k.traverse work).reset.traverse work) := by
  refine ⟨(k.traverse work).reset.within_lists_traverse work, fun id name hsome ↦ ?_⟩
  have hretaken := @traverse_retaken k (k.traverse work).reset (k.traverse work) work
    (fun _ hsome ↦ hsome) (fun _ _ ↦ .inl rfl) id name
  rcases hretaken with hold | hknown
  · exact hold ▸ hsome
  · exact hknown hsome

end Knowledge

/-! ### The traversals of a project -/

/-- What the traversals may rely on in all namespaces that passes run on, unless a file cannot be
used: files can be used and are those of components. -/
structure Usable (project : Project) (ns : Namespace) : Prop where
  readable : project.Readable ns.sources
  live : ns.SourcesLive

/-- What the resolution of export lists may rely on: files can be used and are those of components,
and no list is known yet. -/
structure Prepared (project : Project) (ns : Namespace) : Prop extends Usable project ns where
  noExports : ns.NoExports

variable {project : Project} {ns : Namespace}

/-- A namespace that was built is prepared, if its files can be used. -/
theorem prepared_of_build (h : project.build = .ok ns) (hread : project.Readable ns.sources) :
    Prepared project ns :=
  have hsound := Namespace.sound_build h
  ⟨⟨hread, hsound.sourcesLive⟩, hsound.noExports⟩

namespace Usable

/-- Traversals keep scopes. -/
theorem sameScopes_traversals (h : Usable project ns) (n : Nat) :
    ns.SameScopes (project.traversals pass ns n).ns := by
  induction n with
  | zero => exact .refl ns
  | succ n ih =>
    have hread : project.Readable (project.traversals pass ns n).ns.sources :=
      ih.sources ▸ h.readable
    obtain ⟨-, hscopes, -⟩ := knowledge_run (p := { ns := (project.traversals pass ns n).ns })
      hread (ih.sourcesLive h.live)
    exact ih.trans hscopes

/-- Each traversal succeeds, and reads the same files with what is known after the one before. -/
theorem knowledge_traversals (h : Usable project ns) (n : Nat) :
    (project.run pass { ns := (project.traversals pass ns n).ns }).2 = none ∧
      knowledge (project.traversals pass ns (n + 1)) =
        (knowledge (project.traversals pass ns n)).reset.traverse (work project ns) := by
  have hsame := h.sameScopes_traversals n
  obtain ⟨hok, -, hknowledge⟩ := knowledge_run (p := { ns := (project.traversals pass ns n).ns })
    (hsame.sources ▸ h.readable) (hsame.sourcesLive h.live)
  rw [work_congr hsame.toSameOutline] at hknowledge
  exact ⟨hok, hknowledge⟩

/-- A traversal that knows what the one before knew is followed by one that does, too, and that
counts no more. -/
theorem within_succ (h : Usable project ns) {n : Nat}
    (hwithin : (knowledge (project.traversals pass ns n)).Within
      (knowledge (project.traversals pass ns (n + 1)))) :
    (knowledge (project.traversals pass ns (n + 1))).Within
        (knowledge (project.traversals pass ns (n + 2))) ∧
      (project.traversals pass ns (n + 2)).count ≤ (project.traversals pass ns (n + 1)).count := by
  obtain ⟨hnext, hcount⟩ := Knowledge.traverse_mono hwithin.reset (work project ns)
  rw [← (h.knowledge_traversals n).2, ← (h.knowledge_traversals (n + 1)).2] at hnext hcount
  exact ⟨hnext, hcount⟩

/-- From the first traversal on, each knows what the one before knew. -/
theorem within_traversals_succ (h : Usable project ns) (n : Nat) :
    (knowledge (project.traversals pass ns (n + 1))).Within
      (knowledge (project.traversals pass ns (n + 2))) := by
  induction n with
  | zero =>
    have htwice := (knowledge (project.traversals pass ns 0)).reset.traverse_twice (work project ns)
    rwa [← (h.knowledge_traversals 0).2, ← (h.knowledge_traversals 1).2] at htwice
  | succ n ih => exact (h.within_succ ih).1

/-- **Counts do not rise from the second traversal on**, whatever was known before. -/
theorem count_traversals_succ_le (h : Usable project ns) (n : Nat) :
    (project.traversals pass ns (n + 3)).count ≤ (project.traversals pass ns (n + 2)).count :=
  (h.within_succ (h.within_traversals_succ n)).2

end Usable

namespace Prepared

/-- Before the first traversal nothing is known. -/
theorem lists_eq_none (h : Prepared project ns) (id : Id) :
    ns.exports? id = none ∧ ∀ name, ns.exportAlias? id name = none := by
  unfold Namespace.exports? Namespace.exportAlias?
  cases hc : ns.component? id with
  | none => exact ⟨rfl, fun _ ↦ rfl⟩
  | some c =>
    obtain ⟨hexports, haliases⟩ := h.noExports id c hc
    refine ⟨hexports, fun name ↦ ?_⟩
    rw [Option.bind_some, haliases, Std.ExtTreeMap.getElem?_empty]
    rfl

/-- Each traversal knows what the one before knew. -/
theorem within_traversals (h : Prepared project ns) (n : Nat) :
    (knowledge (project.traversals pass ns n)).Within
      (knowledge (project.traversals pass ns (n + 1))) := by
  cases n with
  | zero =>
    refine ⟨fun id hsome ↦ ?_, fun id name hsome ↦ ?_⟩
    · have hnone : ns.exports? id = none := (h.lists_eq_none id).1
      simp [knowledge, Project.traversals, hnone] at hsome
    · have hnone : ns.exportAlias? id name = none := (h.lists_eq_none id).2 name
      simp [knowledge, Project.traversals, hnone] at hsome
  | succ n => exact h.within_traversals_succ n

/-- **Counts never rise**, from the first traversal on, where nothing was known before. -/
theorem count_traversals_le (h : Prepared project ns) (n : Nat) :
    (project.traversals pass ns (n + 2)).count ≤ (project.traversals pass ns (n + 1)).count :=
  (h.within_succ (h.within_traversals n)).2

/-- **Export resolution ends**, after a traversal that counts as many as the one before. -/
theorem exists_settles (h : Prepared project ns) :
    ∃ settled, project.Settles pass ns settled :=
  Project.exists_settles (fun n ↦ (h.knowledge_traversals n).1) h.count_traversals_le

end Prepared

end Exports

end CodeAtlas
