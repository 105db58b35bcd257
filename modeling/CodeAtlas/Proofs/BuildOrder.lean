import CodeAtlas.Proofs.Arrangement

/-!
# The order of building

Directories are built from the inside out, and numbers are given in the order of building. So the
numbers of entities tell in which order they were built, and how they are inside each other.

## The walk

The walk hands over each directory once, after all that it hands over from below it, and the root
last, whatever is ignored on the way (`Directory.walk_bottom_up`). Names in a directory have to be
different for this, since directories are told apart by their paths.

## Numbers

Within its turn a directory gets its number first, then each module
(`Namespace.modulesLater_build`), and what is declared after what declares it
(`Namespace.exists_parent_lt_of_declared`), so that the number of such an entity is greater than
that of the entity around it.

With directories it is the other way round: what is attached to a directory, and is not new in its
turn, was there before it (`Project.Gets.lt_of_holds`). An entity of a directory is not attached to
itself, as what is attached has a longer name (`Namespace.TurnEnd.not_holds_self`).
-/

namespace CodeAtlas

/-! ### The walk -/

namespace Directory

/-- The walk hands over each directory once, after those below it, and the root last. -/
theorem walk_bottom_up (ignored : Path → Bool) {root : List Entry} (h : Entry.Distinct root) :
    ((Directory.walk ignored root).map Directory.path).Nodup ∧
    (∀ (i j : Nat) (d d' : Directory), (Directory.walk ignored root)[i]? = some d →
      (Directory.walk ignored root)[j]? = some d' → d.path <+: d'.path → d'.path ≠ d.path → j < i) ∧
    (Directory.walk ignored root).getLast? = some ⟨[], root⟩ := by
  have hpairwise := pairwise_walk ignored h
  refine ⟨?_, fun i j d d' hd hd' hbelow hne ↦ ?_, List.getLast?_concat⟩
  · rw [List.Nodup, List.pairwise_map]
    refine hpairwise.imp fun {d d'} hnot hsame ↦ hnot ?_
    exact hsame ▸ List.prefix_rfl
  · obtain ⟨hi, rfl⟩ := List.getElem?_eq_some_iff.1 hd
    obtain ⟨hj, rfl⟩ := List.getElem?_eq_some_iff.1 hd'
    rcases Nat.lt_trichotomy i j with hlt | rfl | hlt
    · exact absurd hbelow (List.pairwise_iff_getElem.1 hpairwise i j hi hj hlt)
    · exact absurd rfl hne
    · exact hlt

end Directory

/-! ### What is around an entity -/

namespace Namespace

variable {project : Project} {d : Directory} {before after ns ns' : Namespace} {o i : Id}
  {s : Shelf} {kind : EntityKind}

/-- What is declared in a step has a greater number than what declares it. -/
theorem BuildStep.holds_or_lt (hstep : BuildStep project ns ns') (htidy : ns.Tidy)
    (hs : s.isDeclared = true) (hi : ns'.Holds o s i) : ns.Holds o s i ∨ o < i := by
  cases hstep with
  | container hbody hcreate =>
    exact .inl ((holds_create htidy.bounded hbody.shelf_eq hcreate).1 hi)
  | @declare created owner id e short body howner hbody hcreate =>
    refine ((holds_declaring htidy.bounded howner hbody hcreate short).1 hi).imp_right ?_
    rintro ⟨rfl, -, rfl⟩
    rw [(create_eq_some_iff.1 hcreate).2.1]
    exact htidy.bounded o (by rw [kind?, howner]; rfl)
  | attach => exact .inl ((holds_attach_of_isDeclared hs).1 hi)
  | prune => exact .inl (holds_prune.1 hi).2
  | keep | root => exact .inl hi

/-- What is declared has a greater number than what declares it. -/
theorem lt_of_isDeclared (h : project.build = .ok ns) (hs : s.isDeclared = true)
    (hi : ns.Holds o s i) : o < i := by
  refine build_induction (fun ns ↦ ∀ o s i, s.isDeclared = true → ns.Holds o s i → o < i) h
    (fun o s i _ hi ↦ ?_) (fun _ _ htidy _ hstep hlt o s i hs hi ↦ ?_) o s i hs hi
  · simp [Holds, get?] at hi
  · exact (hstep.holds_or_lt htidy hs hi).elim (hlt o s i hs) id

/-- A new module is inside the entity of the directory, which has the number before. -/
theorem TurnEnd.parent?_of_component (h : TurnEnd project d before after)
    (hi : before.nextId < i) (hkind : after.kind? i = some .component) :
    after.parent? i = some before.nextId := by
  obtain ⟨files, -, hplaced, hfiled⟩ := h.files
  obtain ⟨f, hf, rfl⟩ := hfiled i (Nat.le_of_lt hi) hkind
  cases hplaced f hf with
  | marker => exact absurd hi (Nat.lt_irrefl _)
  | @module file _ e _ hid _ _ hname hattached =>
    obtain ⟨owner, howner, -⟩ := hattached
    have hlookup := h.orderly.lookup_of_get? _ owner howner
    rw [(h.entity owner howner).1] at hlookup
    refine parent?_eq_some_iff.2 ⟨e, hid, _, ?_, hlookup⟩
    rw [hname, QualName.ofPath_file]
    exact QualName.parent_child (QualName.not_mem_stem file)

/-- Modules have greater numbers than the entities around them. -/
def ModulesLater (ns : Namespace) : Prop :=
  ∀ i, ns.kind? i = some .component → ¬ ns.OfDirectory i → ∃ p, ns.parent? i = some p ∧ p < i

/-- A turn keeps the numbers of modules greater than those of the entities around them. -/
theorem ModulesLater.turn (h : before.ModulesLater) (hturn : project.Turn d before after) :
    after.ModulesLater := by
  intro i hkind hi
  have horderly := hturn.complete_before.toOrderly
  rcases hturn.cases horderly with ⟨-, root, rfl⟩ | ⟨-, hend⟩
  · exact h i hkind hi
  rcases Nat.lt_trichotomy i before.nextId with hlt | rfl | hgt
  · rw [kind?, hend.below i hlt] at hkind
    have hother : ¬ before.OfDirectory i := by
      rintro ⟨e, he, hdirectory⟩
      exact hi ⟨e, (hend.below i hlt).trans he, hdirectory⟩
    obtain ⟨p, hparent, hp⟩ := h i hkind hother
    exact ⟨p, (hend.toLeaves.widens horderly.bounded).parent? horderly.toConsistent
      hend.orderly.toConsistent hparent, hp⟩
  · obtain ⟨e, he, -⟩ := Option.map_eq_some_iff.1 hkind
    exact absurd ⟨e, he, (hend.entity e he).2⟩ hi
  · exact ⟨before.nextId, hend.parent?_of_component hgt hkind, hgt⟩

/-- In what is built modules have greater numbers than the entities around them. -/
theorem modulesLater_build (h : project.build = .ok ns) : ns.ModulesLater := by
  refine project.turn_induction (fun i hkind ↦ ?_) (fun _ _ _ hturn hbefore ↦ hbefore.turn hturn)
    (List.append_nil _).symm h
  simp [kind?, get?] at hkind

/-- A component that is not marked as a directory is a module. -/
theorem not_ofDirectory_of_component? {c : Component} (hc : ns.component? i = some c)
    (hmodule : c.isDirectory = false) :
    ns.kind? i = some .component ∧ ¬ ns.OfDirectory i := by
  obtain ⟨⟨_, _, body⟩, he, hbody⟩ := Option.bind_eq_some_iff.1 hc
  cases body with
  | package | cls | function => cases hbody
  | component =>
    cases hbody
    refine ⟨by rw [kind?, he]; rfl, ?_⟩
    rintro ⟨_, he', hpackage | hdirectory⟩
    · cases he.symm.trans he'
      cases hpackage
    · cases he.symm.trans he'
      exact Bool.false_ne_true (hmodule.symm.trans hdirectory)

/-- Classes, functions and methods have greater numbers than the entities around them. -/
theorem exists_parent_lt_of_declared (h : project.build = .ok ns) (hkind : ns.kind? i = some kind)
    (hcases : kind = .cls ∨ kind = .function) : ∃ p, ns.parent? i = some p ∧ p < i := by
  obtain ⟨owner, s, hs, hparent, hholds⟩ :=
    ((complete_build h).owned i kind hkind).exists_holds hcases
  exact ⟨owner, hparent, lt_of_isDeclared h hs hholds⟩

end Namespace

/-! ### What is attached -/

namespace Namespace

variable {project : Project} {d : Directory} {before after ns : Namespace} {id : Id} {s : Shelf}
  {kind : EntityKind}

/-- The entity of a directory is on shelves for what is attached. -/
theorem OfDirectory.shelf_eq (h : ns.OfDirectory id) (hkind : ns.kind? id = some kind)
    (hadmits : s.Admits kind) : s = .packages ∨ s = .components := by
  have hcases : kind = .package ∨ kind = .component := by
    have hcases := h.kind?
    rwa [hkind, Option.some_inj, Option.some_inj] at hcases
  cases s with
  | packages => exact .inl rfl
  | components => exact .inr rfl
  | classes | functions | methods =>
    rcases hcases with rfl | rfl
    · cases hadmits
    · cases hadmits

/-- The entity of a directory is not attached to itself: what is attached has a longer name. -/
theorem TurnEnd.not_holds_self (h : TurnEnd project d before after)
    (hs : s = .packages ∨ s = .components) : ¬ after.Holds before.nextId s before.nextId := by
  intro hi
  rcases h.attached s _ hs hi with ⟨hlt, -⟩ | ⟨name, -, hlookup⟩
  · exact Nat.lt_irrefl _ hlt
  · obtain ⟨e, he, hname⟩ := h.orderly.exists_of_lookup _ _ hlookup
    rw [(h.entity e he).1, QualName.ofPath_directory] at hname
    exact QualName.child_ne _ _ hname.symm

end Namespace

namespace Project

variable {project : Project} {ns : Namespace} {d : Directory} {owner id : Id} {s : Shelf}

/-- **Numbers grow outwards** from directory to directory. -/
theorem Gets.lt_of_holds (h : project.Gets d id) (hbuild : project.build = .ok ns)
    (hi : ns.Holds owner s id) : ns.OfDirectory owner ∧ id < owner := by
  have hcomplete := Namespace.complete_build hbuild
  obtain ⟨-, kind, hkind, hadmits⟩ := hcomplete.held owner s id hi
  obtain ⟨e, he, -⟩ := Option.map_eq_some_iff.1 hkind
  have hdirectory : ns.OfDirectory id := ⟨e, he, (h.named hbuild he).2⟩
  have hs := hdirectory.shelf_eq hkind hadmits
  have howner := hcomplete.around owner (hi.hasChild hs)
  refine ⟨howner, ?_⟩
  obtain ⟨d', before, after, hturn, hfree, rfl⟩ := hcomplete.origin owner howner
  have hend := hturn.turnEnd hfree
  have hleaves := hturn.leaves_build hbuild
  -- what the turn of the owner brought is not of a directory, so the entity was there before
  have hi := (Namespace.holds_congr (hleaves.below _ hend.next)).1 hi
  obtain ⟨-, kind', hkind', -⟩ := hend.orderly.held _ _ id hi
  have hlt := hend.orderly.bounded id (by rw [hkind']; rfl)
  rcases Nat.lt_trichotomy id before.nextId with hearlier | rfl | hlater
  · exact hearlier
  · exact absurd hi (hend.not_holds_self hs)
  · exact absurd ⟨e, (hleaves.below id hlt).symm.trans he, (h.named hbuild he).2⟩
      (hend.others id hlater)

end Project

/-! ### The order as a whole -/

/-- **The order of building.** Whatever is ignored, the walk hands over each directory at most once,
after those below it that are handed over at all, and the root last. In the namespace that is built,
modules, classes, functions and methods have greater numbers than the entities around them. The
entities of directories are those that directories got at their turns, and each has a smaller number
than all that hold it, which are entities of directories, too. -/
theorem built_from_inside_out :
    (∀ (ignored : Path → Bool) (root : List Entry), Entry.Distinct root →
      ((Directory.walk ignored root).map Directory.path).Nodup ∧
      (∀ (i j : Nat) (d d' : Directory), (Directory.walk ignored root)[i]? = some d →
        (Directory.walk ignored root)[j]? = some d' → d.path <+: d'.path → d'.path ≠ d.path →
          j < i) ∧
      (Directory.walk ignored root).getLast? = some ⟨[], root⟩) ∧
    ∀ (project : Project) (ns : Namespace), project.build = .ok ns →
      (∀ i c, ns.component? i = some c → c.isDirectory = false →
        ∃ p, ns.parent? i = some p ∧ p < i) ∧
      (∀ i, ns.kind? i = some .cls ∨ ns.kind? i = some .function →
        ∃ p, ns.parent? i = some p ∧ p < i) ∧
      (∀ i, ns.OfDirectory i → ∃ d ∈ project.directories, project.Gets d i) ∧
      ∀ d i, project.Gets d i → ∀ owner s, ns.Holds owner s i →
        ns.OfDirectory owner ∧ i < owner := by
  refine ⟨fun ignored root ↦ Directory.walk_bottom_up ignored, fun project ns hbuild ↦
    ⟨fun i c hc hmodule ↦ ?_, fun i hi ↦ ?_, fun i hi ↦ ?_,
      fun d i hgets owner s ↦ hgets.lt_of_holds hbuild⟩⟩
  · obtain ⟨hkind, hi⟩ := Namespace.not_ofDirectory_of_component? hc hmodule
    exact Namespace.modulesLater_build hbuild i hkind hi
  · rcases hi with hkind | hkind
    · exact Namespace.exists_parent_lt_of_declared hbuild hkind (.inl rfl)
    · exact Namespace.exists_parent_lt_of_declared hbuild hkind (.inr rfl)
  · obtain ⟨d, hgets⟩ := (Namespace.complete_build hbuild).origin i hi
    obtain ⟨_, _, hturn, -⟩ := id hgets
    exact ⟨d, hturn.mem_directories, hgets⟩

/-- A directory with a module is handed over before the root, and one that is ignored is not handed
over. -/
theorem nestedProject_built_from_inside_out :
    Entry.Distinct nestedProject.entries ∧
    (∃ entries, .directory "b" entries ∈ nestedProject.entries) ∧
    nestedProject.filter.ignores ["b"] true = true ∧
    nestedProject.directories.map Directory.path = [["a"], []] ∧
    (nestedProject.directories.map Directory.path).Nodup ∧
    (∀ (i j : Nat) (d d' : Directory), nestedProject.directories[i]? = some d →
      nestedProject.directories[j]? = some d' →
      d.path <+: d'.path → d'.path ≠ d.path → j < i) ∧
    nestedProject.directories.getLast? = some ⟨[], nestedProject.entries⟩ ∧
    ∃ ns, nestedProject.build = .ok ns ∧
      (∃ p, ns.parent? 1 = some p ∧ p < 1) ∧ (∃ p, ns.parent? 2 = some p ∧ p < 2) ∧
      (∃ p, ns.parent? 3 = some p ∧ p < 3) ∧ ns.OfDirectory 0 ∧ ns.Holds 4 .components 0 ∧
      ns.OfDirectory 4 := by
  obtain ⟨hwalk, hids⟩ := built_from_inside_out
  obtain ⟨hnodup, horder, hlast⟩ :=
    hwalk (nestedProject.filter.ignores · true) nestedProject.entries distinct_nestedProject
  obtain ⟨ns, hbuild, hgets, hroot, hread⟩ := exists_build_nestedProject
  simp only [Prod.mk.injEq] at hread
  obtain ⟨hkind, hclass, hfunction, hread⟩ := hread
  obtain ⟨c, hc, hmodule⟩ := Option.map_eq_some_iff.1 hread
  obtain ⟨hmodules, hdeclared, -, hdirectories⟩ := hids nestedProject ns hbuild
  have hholds := hgets.holds hbuild distinct_nestedProject hkind hroot rfl
  obtain ⟨e, he, -⟩ := Option.map_eq_some_iff.1 hkind
  refine ⟨distinct_nestedProject, ⟨_, List.mem_cons_of_mem _ List.mem_cons_self⟩, by decide +kernel,
    ?_, hnodup, horder, hlast, ns, hbuild, hmodules 1 c hc hmodule, hdeclared 2 (.inl hclass),
    hdeclared 3 (.inr hfunction), ⟨e, he, (hgets.named hbuild he).2⟩, hholds,
    (hdirectories _ 0 hgets 4 _ hholds).1⟩
  rw [directories_nestedProject]
  rfl

end CodeAtlas
