import Mathlib.Data.List.Induction
import CodeAtlas.Proofs.Drafts

/-!
# Building, turn by turn

The directories of a project have their turns in the order of the walk. What is shown of one turn in
`CodeAtlas.Proofs.Drafts` is carried here from turn to turn, to the namespace that is built.

## One turn

A directory whose name is taken leaves the namespace as it is, except perhaps for the root; any
other gets an entity, and its turn ends as `TurnEnd` says (`Project.Turn.cases`). What holds of the
empty namespace and is kept by each turn holds of what is built (`Project.turn_induction`).

## All turns

Later turns leave the entities of earlier ones alone, so what a turn shows of them is still so in
the namespace that is built (`Project.Turn.leaves_build`). What is built is complete: it is in
order, its components are those of its source files, and the entities of directories are those that
directories got (`Namespace.complete_build`). A turn that comes after another also leaves what was
there after that one (`Project.Turn.leaves_turn`), which is how a directory finds the directories
inside it.
-/

namespace CodeAtlas

namespace Project

/-- The turn of a directory while a project is built, with the namespaces before and after it. -/
def Turn (project : Project) (d : Directory) (before after : Namespace) : Prop :=
  ∃ earlier later, project.directories = earlier ++ d :: later ∧
    earlier.foldlM (Namespace.addDirectory project) { project := project.name } = .ok before ∧
    before.addDirectory project d = .ok after

/-- At its turn a directory gets an entity, with the next number, as its name is not taken. The
entity may be removed again at the end of the turn. -/
def Gets (project : Project) (d : Directory) (id : Id) : Prop :=
  ∃ before after, project.Turn d before after ∧
    before.lookup (.ofPath project.name d.path none) = none ∧ before.nextId = id

variable {project : Project} {d : Directory} {before after ns ns' : Namespace}
  {earlier later : List Directory}

/-- The directories that have turns are those of the project. -/
theorem Turn.mem_directories (h : project.Turn d before after) : d ∈ project.directories := by
  obtain ⟨earlier, later, hdirectories, -⟩ := h
  rw [hdirectories]
  exact List.mem_append_right _ List.mem_cons_self

/-! ### Induction -/

/-- What holds of the empty namespace and is kept by each turn holds after any number of turns. -/
theorem turn_induction {holds : Namespace → Prop} (hempty : holds { project := project.name })
    (hturn : ∀ d before after, project.Turn d before after → holds before → holds after)
    (hdirectories : project.directories = earlier ++ later)
    (h : earlier.foldlM (Namespace.addDirectory project) { project := project.name } = .ok ns) :
    holds ns := by
  induction earlier using List.reverseRecOn generalizing later ns with
  | nil =>
    cases h
    exact hempty
  | append_singleton init d ih =>
    obtain ⟨before, hbefore, hlast⟩ := foldlM_append_eq_ok_iff.1 h
    obtain ⟨after, hafter, hnil⟩ := foldlM_cons_eq_ok_iff.1 hlast
    cases hnil
    rw [List.append_assoc, List.singleton_append] at hdirectories
    exact hturn d before _ ⟨init, later, hdirectories, hbefore, hafter⟩
      (ih hdirectories hbefore)

/-! ### One turn -/

/-- Building a directory does nothing if its name is taken, and else goes through drafts to a last
one. -/
theorem exists_inTurn_of_buildDirectory {built : Namespace} {kept : Option Id}
    (h : before.Orderly []) (hbuilt : before.buildDirectory project d = .ok (built, kept)) :
    ((before.lookup (.ofPath project.name d.path none)).isSome ∧ built = before) ∨
      before.lookup (.ofPath project.name d.path none) = none ∧
        ∃ draft : Draft,
          draft.InTurn project d before (d.listing project.filter).subdirectories ∧
            draft.finish before.nextId = (built, kept) := by
  rcases Namespace.buildDirectory_eq_ok hbuilt with ⟨htaken, rfl, -⟩ | ⟨created, marked, filled,
    hcreate, hmarked, hfilled, hfinish⟩
  · exact .inl ⟨htaken, rfl⟩
  · have hfilled := foldlM_ok_induction (Draft.InTurn project d before [])
      (fun _ file hfile _ hdraft hok ↦ Draft.inTurn_moduleStep hdraft
        (Directory.ne_of_mem_modules hfile) (Directory.mem_of_mem_modules hfile)
        (Draft.moduleStep_of_addModule hok))
      (Draft.inTurn_markerStep h hcreate hmarked) hfilled
    exact .inr ⟨(Namespace.create_eq_some_iff.1 hcreate).1, _,
      hfilled.addSubdirectories (d.listing project.filter).subdirectories, hfinish⟩

/-- A turn changes nothing but the root if the name of the directory is taken, and else ends as it
should. -/
theorem Turn.cases (h : project.Turn d before after) (horderly : before.Orderly []) :
    ((before.lookup (.ofPath project.name d.path none)).isSome ∧
        ∃ root, after = { before with root }) ∨
      before.lookup (.ofPath project.name d.path none) = none ∧
        Namespace.TurnEnd project d before after := by
  obtain ⟨_, _, -, -, hafter⟩ := h
  obtain ⟨⟨built, kept⟩, hbuilt, hrest⟩ := bind_eq_ok_iff.1 hafter
  have hroot : ∃ root, after = { built with root } := by
    cases hrest
    split
    · exact ⟨kept, rfl⟩
    · exact ⟨built.root, rfl⟩
  obtain ⟨root, rfl⟩ := hroot
  rcases exists_inTurn_of_buildDirectory horderly hbuilt with ⟨htaken, rfl⟩ | ⟨hfree, draft, hdraft,
    hfinish⟩
  · exact .inl ⟨htaken, root, rfl⟩
  · have hend := hdraft.turnEnd root
    rw [hfinish] at hend
    exact .inr ⟨hfree, hend⟩

/-- A turn leaves what was there before it. -/
theorem Turn.leaves (h : project.Turn d before after) (horderly : before.Orderly []) :
    before.Leaves after := by
  rcases h.cases horderly with ⟨-, root, rfl⟩ | ⟨-, hend⟩
  · exact ⟨Nat.le_refl _, fun _ _ ↦ rfl⟩
  · exact hend.toLeaves

end Project

/-! ### What is complete -/

namespace Namespace

variable {project : Project} {d : Directory} {before after ns ns' : Namespace}

/-- The namespace is in order, its components are those of its source files, which have their
places, and the entities of directories are those that directories got. -/
structure Complete (project : Project) (ns : Namespace) : Prop extends ns.Orderly [] where
  filed : ∀ i, ns.kind? i = some .component → ∃ f ∈ ns.sources, f.component = i
  placed : ∀ f ∈ ns.sources, ∃ d owner, project.Gets d owner ∧ ns.Placed project d owner f
  origin : ∀ i, ns.OfDirectory i → ∃ d, project.Gets d i

theorem complete_empty (project : Project) : Complete project { project := project.name } where
  toOrderly := orderly_empty project.name
  filed _ h := by simp [kind?, get?] at h
  placed _ hf := absurd hf List.not_mem_nil
  origin _ h := by simp [OfDirectory, get?] at h

/-- A turn keeps a namespace complete. -/
theorem Complete.turn (h : before.Complete project) (hturn : project.Turn d before after) :
    after.Complete project := by
  rcases hturn.cases h.toOrderly with ⟨-, root, rfl⟩ | ⟨hfree, hend⟩
  · refine ⟨h.toOrderly.note root before.sources, h.filed, fun f hf ↦ ?_, h.origin⟩
    obtain ⟨d, owner, hgets, hplaced⟩ := h.placed f hf
    have hwidens : before.Widens { before with root } := fun i e he ↦ ⟨e, he, .refl e⟩
    exact ⟨d, owner, hgets, hwidens.placed hplaced⟩
  · obtain ⟨files, hsources, hplaced, hfiled⟩ := hend.files
    have hgets : project.Gets d before.nextId := ⟨before, after, hturn, hfree, rfl⟩
    refine ⟨hend.orderly, fun i hi ↦ ?_, fun f hf ↦ ?_, fun i hi ↦ ?_⟩
    · rcases Nat.lt_or_ge i before.nextId with hlt | hge
      · rw [kind?, hend.below i hlt] at hi
        obtain ⟨f, hf, hcomponent⟩ := h.filed i hi
        exact ⟨f, hsources ▸ List.mem_append_left _ hf, hcomponent⟩
      · obtain ⟨f, hf, hcomponent⟩ := hfiled i hge hi
        exact ⟨f, hsources ▸ List.mem_append_right _ hf, hcomponent⟩
    · rw [hsources] at hf
      rcases List.mem_append.1 hf with hf | hf
      · obtain ⟨d', owner, hgets', hplaced'⟩ := h.placed f hf
        exact ⟨d', owner, hgets', (hend.toLeaves.widens h.bounded).placed hplaced'⟩
      · exact ⟨d, before.nextId, hgets, hplaced f hf⟩
    · rcases Nat.lt_trichotomy i before.nextId with hlt | rfl | hgt
      · obtain ⟨e, he, hdirectory⟩ := hi
        exact h.origin i ⟨e, hend.below i hlt ▸ he, hdirectory⟩
      · exact ⟨d, hgets⟩
      · exact absurd hi (hend.others i hgt)

/-- What is built is complete. -/
theorem complete_build (h : project.build = .ok ns) : ns.Complete project :=
  project.turn_induction (complete_empty project) (fun _ _ _ hturn hbefore ↦ hbefore.turn hturn)
    (List.append_nil _).symm h

end Namespace

/-! ### From turn to turn -/

namespace Project

variable {project : Project} {d d' : Directory} {before after before' after' ns ns' : Namespace}
  {earlier between later : List Directory}

/-- Before each turn the namespace is complete. -/
theorem Turn.complete_before (h : project.Turn d before after) : before.Complete project := by
  obtain ⟨earlier, later, hdirectories, hbefore, -⟩ := h
  exact project.turn_induction (Namespace.complete_empty project)
    (fun _ _ _ hturn hbefore ↦ hbefore.turn hturn) hdirectories hbefore

/-- A turn at which the directory gets an entity. -/
theorem Turn.turnEnd (h : project.Turn d before after)
    (hfree : before.lookup (.ofPath project.name d.path none) = none) :
    Namespace.TurnEnd project d before after := by
  rcases h.cases h.complete_before.toOrderly with ⟨htaken, -⟩ | ⟨-, hend⟩
  · rw [hfree] at htaken
    cases htaken
  · exact hend

/-- Building up to a directory and then that directory is building up to the next one. -/
theorem Turn.foldlM_eq (hbefore : earlier.foldlM (Namespace.addDirectory project)
    { project := project.name } = .ok before) (hafter : before.addDirectory project d = .ok after) :
    (earlier ++ [d]).foldlM (Namespace.addDirectory project) { project := project.name } =
      .ok after :=
  foldlM_append_eq_ok_iff.2 ⟨before, hbefore, foldlM_cons_eq_ok_iff.2 ⟨after, hafter, rfl⟩⟩

/-- Turns leave what was there before them. -/
theorem leaves_foldlM (between later : List Directory)
    (hdirectories : project.directories = earlier ++ (between ++ later))
    (hns : earlier.foldlM (Namespace.addDirectory project) { project := project.name } = .ok ns)
    (h : between.foldlM (Namespace.addDirectory project) ns = .ok ns') : ns.Leaves ns' := by
  induction between generalizing earlier ns with
  | nil =>
    cases h
    exact .refl _
  | cons d rest ih =>
    obtain ⟨after, hafter, hrest⟩ := foldlM_cons_eq_ok_iff.1 h
    have hturn : project.Turn d _ after := ⟨earlier, rest ++ later, hdirectories, hns, hafter⟩
    refine (hturn.leaves hturn.complete_before.toOrderly).trans
      (ih ?_ (Turn.foldlM_eq hns hafter) hrest)
    rw [hdirectories, List.append_assoc, List.singleton_append, List.cons_append]

/-- What is built leaves what was there after a turn. -/
theorem Turn.leaves_build (h : project.Turn d before after) (hbuild : project.build = .ok ns) :
    after.Leaves ns := by
  obtain ⟨earlier, later, hdirectories, hbefore, hafter⟩ := h
  rw [build, hdirectories, List.append_cons] at hbuild
  obtain ⟨_, hsame, hlater⟩ := foldlM_append_eq_ok_iff.1 hbuild
  rw [Turn.foldlM_eq hbefore hafter] at hsame
  cases hsame
  refine leaves_foldlM later [] ?_ (Turn.foldlM_eq hbefore hafter) hlater
  rw [hdirectories, List.append_cons, List.append_nil]

/-- A turn leaves what was there after an earlier one. -/
theorem Turn.leaves_turn (h : project.Turn d before after) (h' : project.Turn d' before' after')
    (hne : d ≠ d')
    (hearlier : ∀ earlier later, project.directories = earlier ++ d' :: later → d ∉ later) :
    after.Leaves before' := by
  obtain ⟨earlier, later, hdirectories, hbefore, hafter⟩ := h
  obtain ⟨earlier', later', hdirectories', hbefore', -⟩ := h'
  have hnot := hearlier earlier' later' hdirectories'
  rcases List.append_eq_append_iff.1 (hdirectories.symm.trans hdirectories') with
    ⟨between, rfl, hbetween⟩ | ⟨between, rfl, hbetween⟩
  · cases between with
    | nil => exact absurd (List.cons.inj hbetween).1 hne
    | cons first between =>
      obtain rfl : d = first := (List.cons.inj hbetween).1
      rw [List.append_cons] at hbefore'
      obtain ⟨_, hsame, hrest⟩ := foldlM_append_eq_ok_iff.1 hbefore'
      rw [Turn.foldlM_eq hbefore hafter] at hsame
      cases hsame
      refine leaves_foldlM between (d' :: later') ?_ (Turn.foldlM_eq hbefore hafter) hrest
      rw [hdirectories', List.append_assoc, List.cons_append, List.append_cons]
  · -- the directory would come after the other
    cases between with
    | nil => exact absurd (List.cons.inj hbetween).1.symm hne
    | cons first between =>
      obtain ⟨-, rfl⟩ := List.cons.inj hbetween
      exact absurd (List.mem_append_right _ List.mem_cons_self) hnot

end Project

end CodeAtlas
