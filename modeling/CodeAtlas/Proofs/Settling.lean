import CodeAtlas.Proofs.Exports.Stability
import CodeAtlas.Proofs.FileTree
import CodeAtlas.Proofs.Imports.Resolution

/-!
# Resolution of a project that was built

A project whose namespace was built is resolved without failure.

Each source file was read once, in the directory it was found in, and is read again by its path; in
a tree with different names this is the same file (`readable_of_build`). Without this assumption a
pass could find another file under the path, which need not be usable.

Export lists and then imports are resolved by repeated traversals, whose counts do not rise from the
first on (`resolution_settles`). For export lists this rests on there being none before, and for
imports on tables that only grow; both are shown of the passes. What is stated here are the sequence
of counts, how many traversals there are, and what is reported, for both repetitions one after the
other.
-/

namespace CodeAtlas

/-- A file that is found in a directory is found by its path again. -/
theorem Project.source_eq_parse {project : Project} (hdistinct : Entry.Distinct project.entries)
    {d : Directory} (hd : d ∈ project.directories) {name : String} {bytes : ByteArray}
    (hfile : .file name bytes ∈ d.entries) :
    project.source (d.path ++ [name]) = project.parse (d.path ++ [name]) bytes := by
  obtain ⟨steps, hleads, hsteps⟩ := Project.exists_leads_of_mem_directories hd
  have hread : Entry.read project.entries (d.path ++ [name]) = .ok bytes := by
    rw [hsteps]
    exact Entry.read_of_leads hdistinct hleads hfile
  rw [Project.source, hread]

/-- The source files of a namespace that was built can be used. -/
theorem readable_of_build {project : Project} {ns : Namespace}
    (hdistinct : Entry.Distinct project.entries) (h : project.build = .ok ns) :
    project.Readable ns.sources := by
  intro f hf
  obtain ⟨d, hd, name, bytes, hpath, hfile, statements, hparse⟩ :=
    Namespace.exists_readIn_of_build h f hf
  refine ⟨statements, ?_⟩
  rw [← hparse, hpath]
  exact Project.source_eq_parse hdistinct hd hfile

/-- The only entry of a project of one module has a name that no other has. -/
theorem distinct_singleModule (name text : String) :
    Entry.Distinct (singleModule name text).entries := by
  have hwrite :
      Entry.write [] text.toUTF8 [markerName] = .ok (singleModule name text).entries := rfl
  exact (Entry.ordered_nil.write hwrite).distinct

/-! ### Resolution -/

/-- **Resolution ends.** In a project whose namespace was built, export lists and then imports are
resolved. No traversal fails. The counts of unresolved references do not rise from the first
traversal on, the repetition ends after at most two traversals more than the first one counted, and
what it reports as unresolved is the count of the last traversal. -/
theorem resolution_settles {project : Project} {built : Namespace}
    (hdistinct : Entry.Distinct project.entries) (hbuild : project.build = .ok built) :
    ∃ exports imports,
      project.Settles Exports.pass built exports ∧
      project.Settles Imports.pass
        (project.traversals Exports.pass built exports.iterations).ns imports := by
  have hprepared := Exports.prepared_of_build hbuild (readable_of_build hdistinct hbuild)
  obtain ⟨exports, hexports⟩ := hprepared.exists_settles
  have hready := (Imports.prepared_of_resolve hbuild hexports.resolve_eq).ready
  obtain ⟨imports, himports⟩ := hready.exists_settles
  exact ⟨exports, imports, hexports, himports⟩

/-- The module whose list grows takes two traversals more than it counts unresolved references at
first, which are as many as there may be. The module whose names swap has imports to resolve: two
names are open after the first traversal and none after the second, so the third is the last. -/
theorem resolution_of_growing_and_swapping_modules :
    (let project := singleModule "p" Exports.growText
      let built := moduleNamespace "p" Exports.growStatements
      Entry.Distinct project.entries ∧
        project.build = .ok built ∧
        (project.traversals Exports.pass built 1).count + 2 = 3 ∧
        project.Settles Exports.pass built ⟨3, 0⟩ ∧
        ∃ imports, project.Settles Imports.pass (Exports.growRun 3).ns imports) ∧
    (let project := Imports.swapProject
      let built := moduleNamespace "p" Imports.swapStatements
      Entry.Distinct project.entries ∧
        project.build = .ok built ∧
        project.Settles Exports.pass built ⟨1, 0⟩ ∧
        (project.traversals Imports.pass Imports.swapNamespace 1).count = 2 ∧
        (project.traversals Imports.pass Imports.swapNamespace 2).count = 0 ∧
        project.Settles Imports.pass Imports.swapNamespace ⟨3, 0⟩) := by
  refine ⟨?_, ?_⟩
  · have hdistinct := distinct_singleModule "p" Exports.growText
    obtain ⟨exports, imports, hexports, himports⟩ :=
      resolution_settles hdistinct Exports.build_growText
    have hcount : (Exports.growRun 1).count + 2 = 3 := by decide +kernel
    cases Exports.iterations_growText hexports
    rw [Exports.traversals_growText] at himports
    rw [← Exports.traversals_growText] at hcount
    exact ⟨hdistinct, Exports.build_growText, hcount, hexports, imports, himports⟩
  · have hdistinct := distinct_singleModule "p" Imports.swapText
    obtain ⟨exports, imports, hexports, himports⟩ :=
      resolution_settles hdistinct Imports.build_swapProject
    obtain ⟨hns, rfl⟩ := Prod.mk.inj
      (Except.ok.inj (hexports.resolve_eq.symm.trans Imports.resolve_exports_swapProject))
    rw [hns] at himports
    obtain ⟨-, rfl⟩ := Prod.mk.inj
      (Except.ok.inj (himports.resolve_eq.symm.trans Imports.resolve_swapProject))
    have hfirst : (Imports.swapRun 1).count = 2 := by decide +kernel
    have hsecond : (Imports.swapRun 2).count = 0 := by decide +kernel
    rw [← Imports.traversals_swapProject] at hfirst hsecond
    exact ⟨hdistinct, Imports.build_swapProject, hexports, hfirst, hsecond, himports⟩

end CodeAtlas
