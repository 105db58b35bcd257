import CodeAtlas.Proofs.Later
import CodeAtlas.Proofs.Layout
import CodeAtlas.Proofs.Settling

/-!
# What is kept

What building keeps is not empty, nothing in it is missing, and each component has one source file,
so that each pass comes to each of them once (`nothing_empty_or_missing`).

## Children

Packages are kept with packages. Among the components of an entity, however, there may be a class or
a function: a directory without an entity, whose name is that of a class or a function, is taken for
it. This is how anything but components gets there, and it happens exactly where a directory that is
built lists such a directory (`children_of_kind`). Passes and condensing leave all this as it is
(`Namespace.Later`).

## Nothing empty, nothing missing

A module that is kept declares something; a directory that is kept declares something or has
something attached to it (`filled_of_kind`). A package cannot declare anything, so something is
attached to it (`hasChild_of_package`), and a component that has something attached is a directory
(`isDirectory_of_hasChild`).

The source files are noted when a directory is kept, one for each component that is new
(`countP_sources`). They can be read again after building, so a traversal is a fold over them in
which nothing fails, and each component has its turn in it once.
-/

namespace CodeAtlas

variable {project : Project} {built ns : Namespace}

/-! ### Children -/

/-- What is attached to the entity of a directory are components and what has the name of a
directory that is listed there. -/
theorem exists_listed_of_holds (h : project.build = .ok built) {owner i : Id}
    (hi : built.Holds owner .components i) :
    built.kind? i = some .component ∨
      ∃ d before after name, project.Turn d before after ∧
        before.lookup (.ofPath project.name d.path none) = none ∧ before.nextId = owner ∧
          name ∈ (d.listing project.filter).subdirectories ∧
            after.lookup (.ofPath project.name (d.path ++ [name]) none) = some i ∧
              after.get? i = built.get? i := by
  have hcomplete := Namespace.complete_build h
  obtain ⟨d, before, after, hturn, hfree, rfl⟩ := hcomplete.origin owner (hcomplete.around owner
    ⟨i, .inr hi⟩)
  have hend := hturn.turnEnd hfree
  have hleaves := hturn.leaves_build h
  have hi := (Namespace.holds_congr (hleaves.below _ hend.next)).1 hi
  have hlive : i < after.nextId := by
    obtain ⟨-, kind, hkind, -⟩ := hend.orderly.held _ _ i hi
    exact hend.orderly.bounded i (by rw [hkind]; rfl)
  have hsame := hleaves.below i hlive
  rcases hend.attached _ i (.inr rfl) hi with ⟨-, hkind⟩ | ⟨name, hname, hlookup⟩
  · rw [Namespace.kind?, hsame]
    exact .inl hkind
  · exact .inr ⟨d, before, after, name, hturn, hfree, rfl, hname, hlookup, hsame.symm⟩

/-- **Children by kind.** After building, and after any further passes over files or all files,
packages inside an entity are packages. A component inside an entity is a component, or it is a
class or a function with the name of a directory that is listed in the directory of the entity. All
of them are components exactly if, at the end of its turn, no directory that has got an entity lists
one whose name is that of a class or a function. -/
theorem children_of_kind (h : project.build = .ok built) (hlater : built.Later ns) :
    project.RunsStay built.Later ns ∧
    (∀ owner i, ns.Holds owner .packages i → ns.kind? i = some .package) ∧
    (∀ owner i, ns.Holds owner .components i →
      ns.kind? i = some .component ∨
        (ns.kind? i = some .cls ∨ ns.kind? i = some .function) ∧
          ∃ d name, project.Gets d owner ∧ name ∈ (d.listing project.filter).subdirectories ∧
            ns.lookup (.ofPath project.name (d.path ++ [name]) none) = some i) ∧
    ((∀ owner i, ns.Holds owner .components i → ns.kind? i = some .component) ↔
      ∀ d before after, project.Turn d before after →
        before.lookup (.ofPath project.name d.path none) = none →
          ∀ name ∈ (d.listing project.filter).subdirectories, ∀ i,
            after.lookup (.ofPath project.name (d.path ++ [name]) none) = some i →
              after.kind? i = some .package ∨ after.kind? i = some .component) := by
  have hcomplete := Namespace.complete_build h
  have hsame := hlater.sameOutline
  simp only [hsame.holds, hsame.kind?, hsame.lookup]
  refine ⟨hlater.runsStay project, fun owner i hi ↦ ?_, fun owner i hi ↦ ?_,
    fun hall d before after hturn hfree name hname i hi ↦ ?_,
    fun hall owner i hi ↦ ?_⟩
  · obtain ⟨-, kind, hkind, hadmits⟩ := hcomplete.held owner _ i hi
    rw [hkind, show kind = .package from hadmits]
  · obtain ⟨-, kind, hkind, hadmits⟩ := hcomplete.held owner _ i hi
    rcases exists_listed_of_holds h hi with hcomponent | ⟨d, before, after, name, hturn, hfree,
      hnext, hname, hlookup, -⟩
    · exact .inl hcomponent
    · have hgets : project.Gets d owner := ⟨before, after, hturn, hfree, hnext⟩
      have hlookup := ((hturn.leaves_build h).widens (hturn.turnEnd hfree).orderly.bounded).lookup
        (hturn.turnEnd hfree).orderly.toConsistent hcomplete.toConsistent hlookup
      cases kind with
      | package => exact absurd rfl hadmits
      | component => exact .inl hkind
      | cls => exact .inr ⟨.inl hkind, d, name, hgets, hname, hlookup⟩
      | function => exact .inr ⟨.inr hkind, d, name, hgets, hname, hlookup⟩
  · -- what is listed is attached, and stays
    have hend := hturn.turnEnd hfree
    have hleaves := hturn.leaves_build h
    obtain ⟨kind, hkind, hholds⟩ := hend.inside name hname i hi
    rw [hkind]
    have hholds := (hleaves.widens hend.orderly.bounded).holds hholds
    have hbuilt := (hleaves.widens hend.orderly.bounded).kind? hkind
    cases kind with
    | package => exact .inl rfl
    | component | cls | function =>
      exact .inr (hbuilt.symm.trans (hall _ i hholds))
  · rcases exists_listed_of_holds h hi with hcomponent | ⟨d, before, after, name, hturn, hfree, -,
      hname, hlookup, hget⟩
    · exact hcomponent
    · obtain ⟨-, kind, hkind, hadmits⟩ := hcomplete.held owner _ i hi
      have hafter : after.kind? i = built.kind? i := by rw [Namespace.kind?, hget, Namespace.kind?]
      rcases hall d before after hturn hfree name hname i hlookup with hpackage | hcomponent
      · rw [hafter, hkind] at hpackage
        exact absurd (Option.some.inj hpackage) hadmits
      · exact hafter.symm.trans hcomponent

/-- A project whose root lists an empty directory and declares a class of the same name. -/
def emptyDirectoryProject : Project where
  name := "p"
  location := "p"
  entries := [.file markerName "class s:0\n".toUTF8, .directory "s" []]
  filter := []

/-- The class with the name of the empty directory is among the components of the root. -/
theorem class_among_components :
    ∃ built, emptyDirectoryProject.build = .ok built ∧
      built.Later built.condense ∧
      built.condense.Holds 1 .components 2 ∧ built.condense.kind? 2 = some .cls ∧
      (∃ d name, emptyDirectoryProject.Gets d 1 ∧
        name ∈ (d.listing emptyDirectoryProject.filter).subdirectories ∧
          built.condense.lookup (.ofPath "p" (d.path ++ [name]) none) = some 2) ∧
      ¬ ∀ d before after, emptyDirectoryProject.Turn d before after →
        before.lookup (.ofPath "p" d.path none) = none →
          ∀ name ∈ (d.listing emptyDirectoryProject.filter).subdirectories, ∀ i,
            after.lookup (.ofPath "p" (d.path ++ [name]) none) = some i →
              after.kind? i = some .package ∨ after.kind? i = some .component := by
  have hbuild : (emptyDirectoryProject.build.toOption.map fun ns ↦
      (decide (ns.condense.Holds 1 .components 2), ns.condense.kind? 2)) =
        some (true, some .cls) := by
    decide +kernel
  obtain ⟨built, hbuilt, hread⟩ := exists_ok_of_toOption hbuild
  obtain ⟨hholds, hkind⟩ := Prod.mk.inj hread
  have hholds := of_decide_eq_true hholds
  have hlater : built.Later built.condense := .condense .refl
  obtain ⟨-, -, hcomponents, hall⟩ := children_of_kind hbuilt hlater
  refine ⟨built, hbuilt, hlater, hholds, hkind, ?_, fun hlisted ↦ ?_⟩
  · rcases hcomponents 1 2 hholds with hcomponent | ⟨-, hexists⟩
    · rw [hkind] at hcomponent
      cases hcomponent
    · exact hexists
  · have hcomponent := hall.2 hlisted 1 2 hholds
    rw [hkind] at hcomponent
    cases hcomponent

/-! ### Nothing empty, nothing missing -/

/-- Each component has one source file. -/
theorem countP_sources (h : project.build = .ok ns) (id : Id) :
    (ns.sources.countP fun f ↦ f.component = id) =
      if ns.kind? id = some .component then 1 else 0 := by
  have hcount : (ns.sources.countP fun f ↦ f.component = id) =
      (ns.sources.map SourceFile.component).count id := by
    rw [List.count, List.countP_map]
    rfl
  rw [hcount]
  split
  · next hkind =>
    obtain ⟨f, hf, rfl⟩ := (Namespace.complete_build h).filed id hkind
    exact List.count_eq_one_of_mem (Namespace.nodup_sources_of_build h) (List.mem_map_of_mem hf)
  · next hkind =>
    refine List.count_eq_zero.2 fun hid ↦ hkind ?_
    obtain ⟨f, hf, rfl⟩ := List.mem_map.1 hid
    exact (Namespace.sound_build h).sourcesLive f hf

/-- Packages and components declare something or have something attached to them. -/
theorem filled_of_kind (h : project.build = .ok ns) {id : Id} {kind : EntityKind}
    (hkind : ns.kind? id = some kind) (hmodular : kind = .package ∨ kind = .component) :
    ns.declares id ∨ ns.HasChild id := by
  rcases (Namespace.complete_build h).filled id (by rw [hkind]; rfl) List.not_mem_nil with
    hcls | hfunction | hfilled
  · rw [hkind] at hcls
    cases hcls
    rcases hmodular with hmodular | hmodular <;> cases hmodular
  · rw [hkind] at hfunction
    cases hfunction
    rcases hmodular with hmodular | hmodular <;> cases hmodular
  · exact hfilled

/-- What has the body of a component is a component. -/
theorem Namespace.kind?_of_component? {id : Id} {c : Component} (hc : ns.component? id = some c) :
    ns.kind? id = some .component := by
  obtain ⟨⟨_, _, body⟩, he, hbody⟩ := Option.bind_eq_some_iff.1 hc
  rw [Namespace.kind?, he]
  cases body with
  | package | cls | function => cases hbody
  | component => rfl

/-- A component that has something attached to it is a directory. -/
theorem isDirectory_of_hasChild (h : project.build = .ok ns) {id : Id} {c : Component}
    (hc : ns.component? id = some c) (hchild : ns.HasChild id) : c.isDirectory = true := by
  obtain ⟨e, he, hdirectory⟩ := (Namespace.complete_build h).around id hchild
  rw [Namespace.component?, he] at hc
  obtain ⟨_, _, body⟩ := e
  cases body with
  | package | cls | function => cases hc
  | component =>
    cases hc
    rcases hdirectory with hpackage | hdirectory
    · cases hpackage
    · exact hdirectory

/-- A package has something attached to it, since it cannot declare anything. -/
theorem hasChild_of_package (h : project.build = .ok ns) {id : Id}
    (hkind : ns.kind? id = some .package) : ns.HasChild id := by
  refine (filled_of_kind h hkind (.inl rfl)).resolve_left fun hdeclares ↦ ?_
  obtain ⟨i, hi⟩ := Namespace.declares_iff.1 hdeclares
  have hcomponent : ns.kind? id = some .component :=
    hi.elim (fun hi ↦ hi.kind?_of_declared (.inl rfl)) fun hi ↦ hi.kind?_of_declared (.inr rfl)
  rw [hkind] at hcomponent
  cases hcomponent

/-- **Nothing is empty or missing.** In the namespace that is built, a module declares something, a
directory that is a component declares something or has something inside, and a package has
something inside. What is held by an entity is there. Each component has exactly one source file,
which is the marker of its directory or the file of the module, and nothing else has one. So in each
traversal after building the pass comes to the source files in order, to each component once, and
none of them fails. -/
theorem nothing_empty_or_missing (h : project.build = .ok ns) :
    (∀ id c, ns.component? id = some c → c.isDirectory = false → ns.declares id) ∧
    (∀ id c, ns.component? id = some c → c.isDirectory = true → ns.declares id ∨ ns.HasChild id) ∧
    (∀ id, ns.kind? id = some .package → ns.HasChild id) ∧
    (∀ owner s i, ns.Holds owner s i → (ns.kind? i).isSome) ∧
    (∀ id, (ns.sources.countP fun f ↦ f.component = id) =
      if ns.kind? id = some .component then 1 else 0) ∧
    (∀ f ∈ ns.sources, ∃ d owner, project.Gets d owner ∧ ns.Placed project d owner f) ∧
    (Entry.Distinct project.entries → ∀ (pass : Pass) (p : Progress), ns.Later p.ns →
      (∀ f ∈ ns.sources, project.source f.path = .ok (project.statements f.path)) ∧
        project.run pass p =
          (ns.sources.foldl (fun p f ↦ pass f.component (project.statements f.path) p) p,
            none)) := by
  have hcomplete := Namespace.complete_build h
  have hfilled : ∀ id c, ns.component? id = some c → ns.declares id ∨ ns.HasChild id :=
    fun id c hc ↦ filled_of_kind h (Namespace.kind?_of_component? hc) (.inr rfl)
  refine ⟨fun id c hc hmodule ↦ ?_, fun id c hc _ ↦ hfilled id c hc,
    fun id ↦ hasChild_of_package h, fun owner s i hi ↦ ?_, countP_sources h, hcomplete.placed,
    fun hdistinct pass p hlater ↦ ?_⟩
  · refine (hfilled id c hc).resolve_right fun hchild ↦ ?_
    rw [isDirectory_of_hasChild h hc hchild] at hmodule
    cases hmodule
  · obtain ⟨-, kind, hkind, -⟩ := hcomplete.held owner s i hi
    rw [hkind]
    rfl
  · have hreadable := readable_of_build hdistinct h
    refine ⟨fun f hf ↦ ?_, ?_⟩
    · obtain ⟨file, hfile⟩ := hreadable f hf
      rw [Project.statements, hfile]
    · rw [Project.run, hlater.sameOutline.sources]
      exact Project.traverse_eq_foldl hreadable

/-- The module declares a class, the directory has the module inside, and the root the directory. -/
theorem nothing_empty_in_nested_directory :
    Entry.Distinct nestedProject.entries ∧ ∃ ns, nestedProject.build = .ok ns ∧
      (∃ c, ns.component? 1 = some c ∧ c.isDirectory = false ∧ ns.declares 1) ∧
      (∃ c, ns.component? 0 = some c ∧ c.isDirectory = true ∧ (ns.declares 0 ∨ ns.HasChild 0)) ∧
      ns.kind? 4 = some .package ∧ ns.HasChild 4 ∧
      ns.Holds 2 .methods 3 ∧ (ns.kind? 3).isSome ∧
      ⟨["a", "m.py"], 1⟩ ∈ ns.sources ∧
      (∃ d owner, nestedProject.Gets d owner ∧
        ns.Placed nestedProject d owner ⟨["a", "m.py"], 1⟩) ∧
      ns.Later ns.condense ∧
      nestedProject.source ["a", "m.py"] = .ok (nestedProject.statements ["a", "m.py"]) ∧
      nestedProject.run Inheritance.pass ⟨ns.condense, 0⟩ =
        (ns.sources.foldl
          (fun p f ↦ Inheritance.pass f.component (nestedProject.statements f.path) p)
          ⟨ns.condense, 0⟩, none) := by
  have hbuild : (nestedProject.build.toOption.map fun ns ↦
      ((ns.component? 1).map Component.isDirectory, (ns.component? 0).map Component.isDirectory,
        ns.kind? 4, decide (ns.Holds 2 .methods 3), decide (⟨["a", "m.py"], 1⟩ ∈ ns.sources))) =
      some (some false, some true, some .package, true, true) := by
    decide +kernel
  obtain ⟨ns, hns, hread⟩ := exists_ok_of_toOption hbuild
  simp only [Prod.mk.injEq, decide_eq_true_eq] at hread
  obtain ⟨hmodule, hregular, hpackage, hmethod, hfile⟩ := hread
  obtain ⟨c, hc, hmodule⟩ := Option.map_eq_some_iff.1 hmodule
  obtain ⟨c', hc', hregular⟩ := Option.map_eq_some_iff.1 hregular
  obtain ⟨hmodules, hdirectories, hpackages, hheld, -, hplaced, hpasses⟩ :=
    nothing_empty_or_missing hns
  have hlater : ns.Later ns.condense := .condense .refl
  obtain ⟨hsource, hrun⟩ := hpasses distinct_nestedProject Inheritance.pass ⟨ns.condense, 0⟩ hlater
  exact ⟨distinct_nestedProject, ns, hns, ⟨c, hc, hmodule, hmodules 1 c hc hmodule⟩,
    ⟨c', hc', hregular, hdirectories 0 c' hc' hregular⟩, hpackage, hpackages 4 hpackage, hmethod,
    hheld 2 _ 3 hmethod, hfile, hplaced _ hfile, hlater,
    hsource ⟨["a", "m.py"], 1⟩ hfile, hrun⟩

end CodeAtlas
