import CodeAtlas.Proofs.FileTree
import CodeAtlas.Proofs.Turns

/-!
# Where entities are

In the namespace that is built each entity is inside the one that it should be in, and is held by
it: a class by its module, a function by its module or its class, a module by its directory, and a
directory by the directory around it (`containment_closed`).

## Around and held

What is around an entity is read off its name, and what holds it is read off the shelves. For
classes and functions that the two agree was shown step by step while building
(`CodeAtlas.Proofs.Orderly`). For modules and directories it is so because the entity around them
has the name of their directory, as that got an entity (`Project.Gets.named`), and the last segment
of their own name has no dot.

## Turns

The entity of a directory was kept because its modules and the directories inside were attached to
it, at its turn. A directory has its turn after those inside it, so their entities are there by
then, under the names by which they are looked for (`Project.Gets.holds`). A module gets its entity
in the turn of its own directory (`exists_directory_of_module`).

A directory whose name has a dot is attached to the one around it as well, but that is not the
entity around it by name. This is why the last part of `containment_closed` speaks of names without
dots.
-/

namespace CodeAtlas

variable {project : Project} {ns : Namespace} {d around : Directory} {id owner : Id} {e : Entity}
  {name : String} {kind : EntityKind}

/-! ### Directories -/

namespace Project

/-- The entity that a directory got is as its turn left it. -/
theorem Gets.named (h : project.Gets d id) (hbuild : project.build = .ok ns)
    (he : ns.get? id = some e) :
    e.qualName = .ofPath project.name d.path none ∧ e.body.OfDirectory := by
  obtain ⟨before, after, hturn, hfree, rfl⟩ := h
  have hend := hturn.turnEnd hfree
  rw [(hturn.leaves_build hbuild).below _ hend.next] at he
  exact hend.entity e he

/-- What is named inside a directory has the entity of the directory around it. -/
theorem Gets.parent? (h : project.Gets d owner) (hbuild : project.build = .ok ns)
    (howner : ns.OfDirectory owner) (he : ns.get? id = some e)
    (hname : e.qualName = (QualName.ofPath project.name d.path none).child name)
    (hdot : '.' ∉ name.toList) : ns.parent? id = some owner := by
  obtain ⟨o, ho, -⟩ := howner
  have hlookup := (Namespace.complete_build hbuild).lookup_of_get? owner o ho
  rw [(h.named hbuild ho).1] at hlookup
  refine Namespace.parent?_eq_some_iff.2 ⟨e, he, _, ?_, hlookup⟩
  rw [hname]
  exact QualName.parent_child hdot

/-- A directory is attached to the one around it, which comes later. -/
theorem Gets.holds (h : project.Gets d id) (hbuild : project.build = .ok ns)
    (hdistinct : Entry.Distinct project.entries) (hkind : ns.kind? id = some kind)
    (haround : project.Gets around owner) (hpath : d.path = around.path ++ [name]) :
    ns.Holds owner (.attached kind) id := by
  obtain ⟨e, he, -⟩ := Option.map_eq_some_iff.1 hkind
  have hname := (h.named hbuild he).1
  obtain ⟨before, after, hturn, hfree, rfl⟩ := h
  obtain ⟨before', after', hturn', hfree', rfl⟩ := haround
  have hend := hturn.turnEnd hfree
  have hend' := hturn'.turnEnd hfree'
  have hne : d ≠ around := by
    rintro rfl
    simpa using congrArg List.length hpath
  -- the entity is as it was before the turn of the directory around it
  have hleaves := hturn.leaves_turn hturn' hne (not_mem_later hdistinct hpath)
  have hlt : before.nextId < after'.nextId :=
    Nat.lt_of_lt_of_le hend.next (Nat.le_trans hleaves.nextId hend'.nextId)
  have hleaves' := hturn'.leaves_build hbuild
  have hlookup : after'.lookup (.ofPath project.name (around.path ++ [name]) none) =
      some before.nextId := by
    rw [← hpath, ← hname]
    refine hend'.orderly.lookup_of_get? _ e ?_
    rw [← hleaves'.below _ hlt, he]
  obtain ⟨kind', hkind', hholds⟩ := hend'.inside name
    (mem_subdirectories hdistinct hturn.mem_directories hturn'.mem_directories hpath) _ hlookup
  rw [Namespace.kind?, hleaves'.below _ hlt] at hkind
  obtain rfl : kind' = kind := Option.some.inj (hkind'.symm.trans hkind)
  exact (hleaves'.widens hend'.orderly.bounded).holds hholds

end Project

/-! ### Modules -/

/-- A module is attached to the directory that it is in. -/
theorem exists_directory_of_module (h : project.build = .ok ns) {c : Component}
    (hc : ns.component? id = some c) (hmodule : c.isDirectory = false) :
    ∃ d file owner, file ≠ markerName ∧ ⟨d.path ++ [file], id⟩ ∈ ns.sources ∧
      project.Gets d owner ∧ ns.OfDirectory owner ∧ ns.parent? id = some owner ∧
        ns.Holds owner .components id := by
  have hcomplete := Namespace.complete_build h
  obtain ⟨⟨_, _, body⟩, he, hbody⟩ := Option.bind_eq_some_iff.1 hc
  cases body with
  | package | cls | function => cases hbody
  | component =>
    cases hbody
    obtain ⟨f, hf, rfl⟩ := hcomplete.filed id (by rw [Namespace.kind?, he]; rfl)
    obtain ⟨d, owner, hgets, hplaced⟩ := hcomplete.placed f hf
    cases hplaced with
    | marker howner hmarker =>
      rw [he] at howner
      cases howner
      exact absurd (hmodule.symm.trans hmarker) Bool.false_ne_true
    | @module file id e hfile hid hkind _ hname hattached =>
      have howner := hcomplete.around owner ⟨id, .inr hattached⟩
      rw [QualName.ofPath_file] at hname
      exact ⟨d, file, owner, hfile, hf, hgets, howner,
        hgets.parent? h howner hid hname (QualName.not_mem_stem file), hattached⟩

/-! ### All entities -/

/-- **Containment is closed.** In the namespace that is built, a class is inside a component that
has it among its classes, and a function is inside a component that has it among its functions or
inside a class that has it among its methods. A module is inside the entity that its directory got,
which has it among its components. Each entity of a directory is one that a directory got; if the
directory around it got an entity too, and its own name has no dot, then it is inside that entity,
which has it among its packages or components, whichever it is. -/
theorem containment_closed (h : project.build = .ok ns) :
    (∀ id, ns.kind? id = some .cls → ∃ owner, ns.parent? id = some owner ∧
      ns.kind? owner = some .component ∧ ns.Holds owner .classes id) ∧
    (∀ id, ns.kind? id = some .function → ∃ owner, ns.parent? id = some owner ∧
      (ns.kind? owner = some .component ∧ ns.Holds owner .functions id ∨
        ns.kind? owner = some .cls ∧ ns.Holds owner .methods id)) ∧
    (∀ id c, ns.component? id = some c → c.isDirectory = false →
      ∃ d file owner, file ≠ markerName ∧ ⟨d.path ++ [file], id⟩ ∈ ns.sources ∧
        project.Gets d owner ∧ ns.OfDirectory owner ∧ ns.parent? id = some owner ∧
          ns.Holds owner .components id) ∧
    (∀ id, ns.OfDirectory id → ∃ d, project.Gets d id) ∧
    (Entry.Distinct project.entries → ∀ d around name id owner kind,
      project.Gets d id → ns.kind? id = some kind → project.Gets around owner →
        d.path = around.path ++ [name] → '.' ∉ name.toList →
          ns.OfDirectory owner ∧ ns.parent? id = some owner ∧
            ns.Holds owner (.attached kind) id) := by
  have hcomplete := Namespace.complete_build h
  refine ⟨fun id hid ↦ ?_, fun id hid ↦ ?_, fun id c ↦ exists_directory_of_module h,
    hcomplete.origin, fun hdistinct d around name id owner kind hd hkind haround hpath hdot ↦ ?_⟩
  · obtain ⟨owner, hparent, hholds⟩ := hcomplete.owned id _ hid
    exact ⟨owner, hparent, hholds.kind?_of_declared (.inl rfl), hholds⟩
  · obtain ⟨owner, hparent, hholds⟩ := hcomplete.owned id _ hid
    refine ⟨owner, hparent, hholds.imp (fun hholds ↦ ?_) fun hholds ↦ ?_⟩
    · exact ⟨hholds.kind?_of_declared (.inr rfl), hholds⟩
    · exact ⟨hholds.kind?_of_methods, hholds⟩
  · have hholds := hd.holds h hdistinct hkind haround hpath
    have howner := hcomplete.around owner (hholds.hasChild (Shelf.attached_eq kind))
    obtain ⟨e, he, -⟩ := Option.map_eq_some_iff.1 hkind
    have hname := (hd.named h he).1
    rw [hpath, QualName.ofPath_directory] at hname
    exact ⟨howner, haround.parent? h howner he hname hdot, hholds⟩

/-- A directory with a marker file and a module. -/
def nestedDirectory : Directory :=
  ⟨["a"], [.file markerName "".toUTF8, .file "m.py" "class Q:\n def r(z):0\n".toUTF8]⟩

/-- The project with this directory and another one, which is ignored. -/
def nestedProject : Project where
  name := "p"
  location := "p"
  entries := [.directory "a" nestedDirectory.entries,
    .directory "b" [.file markerName "def t():0\n".toUTF8]]
  filter := .ofLines ["b/"]

/-- The walk hands over the first directory and the root. -/
theorem directories_nestedProject :
    nestedProject.directories = [nestedDirectory, ⟨[], nestedProject.entries⟩] := by
  have hfirst : nestedProject.filter.ignores ["a"] true = false := by decide +kernel
  have hsecond : nestedProject.filter.ignores ["b"] true = true := by decide +kernel
  have hentries : nestedProject.entries = [.directory "a" nestedDirectory.entries,
    .directory "b" [.file markerName "def t():0\n".toUTF8]] := rfl
  rw [Project.directories, Directory.walk, hentries]
  simp [Entry.walkList, Entry.walk, Entry.isDirectory, Entry.name, nestedDirectory, hfirst, hsecond]

/-- The names in this project are different. -/
theorem distinct_nestedProject : Entry.Distinct nestedProject.entries := by
  have hmarker : Entry.write [] "".toUTF8 [markerName] = .ok [.file markerName "".toUTF8] := rfl
  have hfiles : Entry.write [.file markerName "".toUTF8] "class Q:\n def r(z):0\n".toUTF8 ["m.py"] =
      .ok nestedDirectory.entries := rfl
  have hinner := (Entry.ordered_nil.write hmarker).write hfiles
  have hignored : Entry.write [] "def t():0\n".toUTF8 [markerName] =
      .ok [.file markerName "def t():0\n".toUTF8] := rfl
  have hfirst := Entry.ordered_nil.put_directory hinner "a"
  exact (hfirst.put_directory (Entry.ordered_nil.write hignored) "b").distinct

/-- The directory, its module, the class and its method get their numbers before the root does. -/
theorem exists_build_nestedProject :
    ∃ ns, nestedProject.build = .ok ns ∧ nestedProject.Gets nestedDirectory 0 ∧
      nestedProject.Gets ⟨[], nestedProject.entries⟩ 4 ∧
      (ns.kind? 0, ns.kind? 2, ns.kind? 3, (ns.component? 1).map Component.isDirectory) =
        (some .component, some .cls, some .function, some false) := by
  have hfirst : ((Namespace.addDirectory nestedProject { project := "p" }
      nestedDirectory).toOption.map fun ns ↦ (ns.nextId, ns.lookup ⟨"p"⟩)) = some (4, none) := by
    decide +kernel
  have hbuild : (nestedProject.build.toOption.map fun ns ↦
      (ns.kind? 0, ns.kind? 2, ns.kind? 3, (ns.component? 1).map Component.isDirectory)) =
        some (some .component, some .cls, some .function, some false) := by
    decide +kernel
  obtain ⟨after, hafter, hread⟩ := exists_ok_of_toOption hfirst
  obtain ⟨hnext, hlookup⟩ := Prod.mk.inj hread
  obtain ⟨ns, hns, hkinds⟩ := exists_ok_of_toOption hbuild
  refine ⟨ns, hns, ⟨_, after, ⟨[], _, directories_nestedProject, rfl, hafter⟩, ?_, rfl⟩, ?_, hkinds⟩
  · simp [Namespace.lookup]
  · rw [Project.build, directories_nestedProject] at hns
    obtain ⟨after', hafter', hlast⟩ := foldlM_cons_eq_ok_iff.1 hns
    obtain rfl : after = after' := Except.ok.inj (hafter.symm.trans hafter')
    obtain ⟨_, hroot, -⟩ := foldlM_cons_eq_ok_iff.1 hlast
    refine ⟨after, _, ⟨[nestedDirectory], [], directories_nestedProject, ?_, hroot⟩, hlookup, hnext⟩
    exact foldlM_cons_eq_ok_iff.2 ⟨after, hafter, rfl⟩

/-- The class, its method, the module and the directory are each inside the one around them. -/
theorem containment_of_nested_directory :
    Entry.Distinct nestedProject.entries ∧ ∃ ns, nestedProject.build = .ok ns ∧
      (∃ owner, ns.parent? 2 = some owner ∧ ns.kind? owner = some .component ∧
        ns.Holds owner .classes 2) ∧
      (∃ owner, ns.parent? 3 = some owner ∧
        (ns.kind? owner = some .component ∧ ns.Holds owner .functions 3 ∨
          ns.kind? owner = some .cls ∧ ns.Holds owner .methods 3)) ∧
      (∃ d file owner, file ≠ markerName ∧ ⟨d.path ++ [file], 1⟩ ∈ ns.sources ∧
        nestedProject.Gets d owner ∧ ns.OfDirectory owner ∧ ns.parent? 1 = some owner ∧
          ns.Holds owner .components 1) ∧
      nestedProject.Gets nestedDirectory 0 ∧ nestedProject.Gets ⟨[], nestedProject.entries⟩ 4 ∧
      ns.OfDirectory 4 ∧ ns.parent? 0 = some 4 ∧ ns.Holds 4 .components 0 := by
  obtain ⟨ns, hbuild, hgets, hroot, hread⟩ := exists_build_nestedProject
  simp only [Prod.mk.injEq] at hread
  obtain ⟨hkind, hclass, hfunction, hread⟩ := hread
  obtain ⟨c, hc, hmodule⟩ := Option.map_eq_some_iff.1 hread
  obtain ⟨hclasses, hfunctions, hmodules, -, hdirectories⟩ := containment_closed hbuild
  exact ⟨distinct_nestedProject, ns, hbuild, hclasses 2 hclass, hfunctions 3 hfunction,
    hmodules 1 c hc hmodule, hgets, hroot,
    hdirectories distinct_nestedProject _ _ "a" 0 4 _ hgets hkind hroot rfl (by decide)⟩

end CodeAtlas
