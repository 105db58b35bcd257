import CodeAtlas.Proofs.Findings

/-!
# What a pass over a file writes

Every pass holds the whole namespace. What it writes of it is little, and is said here in two ways.

## The skeleton

All passes, and condensing, leave the *skeleton* of the namespace alone, which is all that building
has entered: the numbers, names and kinds of entities, their declarations, what they hold,
parameters, markers, the root and the source files. It is defined by erasing everything else
(`Namespace.skeleton`), so that what a pass may write has to be named, and not what it keeps
(`Namespace.Later.skeleton_eq`).

## The file

The pass over the file of a component writes one part of what entities hold, and only of that
component or of what is declared in it (`Namespace.Writes`), since the scopes of its visits never
leave the file (`ScopeStack.Own`). There is one lemma for each pass:

* resolving exports writes the lists of the component (`Exports.writes_pass`);
* resolving imports writes the import tables of the scopes of the file (`Imports.writes_pass`);
* the pass for attributes writes those of classes of the file, and associations
  (`Attributes.writes_pass`);
* the passes for inheritance and calls write dependencies (`Relating.ns_pass_eq`).

`file_writes_own_scopes` collects them for every namespace that comes after what was built.
-/

namespace CodeAtlas

/-! ### Parts of a body -/

namespace Body

/-- A body without export lists. -/
def withoutExports (b : Body) : Body :=
  b.mapComponent fun c ↦ { c with exports := none, exportAliases := ∅ }

/-- A body without attributes. -/
def withoutAttributes (b : Body) : Body :=
  b.mapClass fun c ↦ { c with attributes := [] }

/-- What building enters into a body: without imports, export lists, attributes and relations. -/
def skeleton : Body → Body
  | package p => package { p with relations := ∅ }
  | component c => component { c with
      scope := { c.scope with imported := ∅ }
      relations := ∅
      exports := none
      exportAliases := ∅ }
  | cls c => cls { c with
      scope := { c.scope with imported := ∅ }
      attributes := []
      relations := ∅ }
  | function f => function { f with scope := { f.scope with imported := ∅ } }

@[simp]
theorem skeleton_withoutExports (b : Body) : b.withoutExports.skeleton = b.skeleton := by
  cases b <;> rfl

@[simp]
theorem skeleton_withoutImports (b : Body) : b.withoutImports.skeleton = b.skeleton := by
  cases b <;> rfl

@[simp]
theorem skeleton_withoutFindings (b : Body) : b.withoutFindings.skeleton = b.skeleton := by
  cases b <;> rfl

/-- A change to the export lists of a component is not seen without export lists. -/
theorem withoutExports_mapComponent {f : Component → Component} (hf : Exports.ListChange f)
    (b : Body) : (b.mapComponent f).withoutExports = b.withoutExports := by
  cases b with
  | component c =>
    obtain ⟨_, _, hc⟩ := hf c
    show component { f c with exports := none, exportAliases := ∅ } = _
    rw [hc]
    rfl
  | package | cls | function => rfl

/-- A new attribute is not seen without attributes. -/
theorem withoutAttributes_addAttribute (v : Variable) (b : Body) :
    (b.mapClass (·.addAttribute v)).withoutAttributes = b.withoutAttributes := by
  cases b with
  | cls c =>
    show cls { c.addAttribute v with attributes := [] } = _
    unfold Class.addAttribute
    split <;> rfl
  | package | component | function => rfl

end Body

/-! ### The skeleton -/

namespace Namespace

variable {built ns ns' ns'' : Namespace} {id : Id} {erase : Body → Body} {own : Id → Prop}

/-- All that building enters: the numbers, names and kinds of entities, their declarations, what
they hold, parameters, markers, the root, and the source files. -/
def skeleton (ns : Namespace) : Namespace :=
  { ns.mapBodies Body.skeleton with
    dependencies := ∅
    associations := ∅
    condensed := ∅ }

/-- What is not in the skeleton may be left out before. -/
theorem skeleton_erase (herase : ∀ b, (erase b).skeleton = b.skeleton) (ns : Namespace)
    (dependencies associations condensed : RelationSet) :
    ({ ns.mapBodies erase with dependencies, associations, condensed } : Namespace).skeleton =
      ns.skeleton := by
  have hbodies : (ns.mapBodies erase).mapBodies Body.skeleton = ns.mapBodies Body.skeleton := by
    rw [mapBodies_mapBodies]
    exact congrArg (mapBodies · ns) (funext herase)
  show ({ (ns.mapBodies erase).mapBodies Body.skeleton with
    dependencies := ∅
    associations := ∅
    condensed := ∅ } : Namespace) = ns.skeleton
  rw [hbodies, skeleton]

/-- Namespaces that differ in a part that is not in the skeleton have the same skeleton. -/
theorem skeleton_congr (herase : ∀ b, (erase b).skeleton = b.skeleton)
    (h : ns'.mapBodies erase = ns.mapBodies erase) : ns'.skeleton = ns.skeleton := by
  have hleft : ∀ ns : Namespace, (ns.mapBodies erase).skeleton = ns.skeleton := fun ns ↦
    skeleton_erase herase ns ns.dependencies ns.associations ns.condensed
  rw [← hleft ns', h, hleft]

/-! ### Writing -/

/-- The second namespace differs from the first only in the part of bodies that is erased, and only
in entities of which this is allowed. -/
structure Writes (erase : Body → Body) (own : Id → Prop) (ns ns' : Namespace) : Prop where
  frame : ns'.mapBodies erase = ns.mapBodies erase
  others : ∀ id, ¬ own id → ns'.get? id = ns.get? id

namespace Writes

theorem refl (ns : Namespace) : ns.Writes erase own ns :=
  ⟨rfl, fun _ _ ↦ rfl⟩

theorem trans (h : ns.Writes erase own ns') (h' : ns'.Writes erase own ns'') :
    ns.Writes erase own ns'' :=
  ⟨h'.frame.trans h.frame, fun id hid ↦ (h'.others id hid).trans (h.others id hid)⟩

/-- A change to a part of one body writes that part of that entity. -/
theorem modify (hid : own id) {f : Body → Body} (hf : ∀ b, erase (f b) = erase b) (ns : Namespace) :
    ns.Writes erase own (ns.modify id f) := by
  refine ⟨mapBodies_modify hf, fun i hi ↦ ?_⟩
  rw [get?_modify, if_neg]
  rintro rfl
  exact hi hid

/-- Steps that write in this way do so one after another. -/
theorem foldl {σ α : Type} (read : σ → Namespace) {step : σ → α → σ} {l : List α}
    (hstep : ∀ s, ∀ a ∈ l, (read s).Writes erase own (read (step s a))) (s : σ) :
    (read s).Writes erase own (read (l.foldl step s)) := by
  induction l generalizing s with
  | nil => exact .refl _
  | cons a rest ih =>
    exact (hstep s a List.mem_cons_self).trans
      (ih (fun s b hb ↦ hstep s b (List.mem_cons_of_mem _ hb)) (step s a))

end Writes

end Namespace

/-! ### The passes -/

section Passes

variable {ns : Namespace} {m : Id} (file : List Stmt)

/-- Resolving exports writes the lists of the component. -/
theorem Exports.writes_pass (m : Id) (p : Progress) :
    p.ns.Writes Body.withoutExports (· = m) (pass m file p).ns :=
  pass_induction (p.ns.Writes Body.withoutExports (· = m))
    (fun ns f hf hns ↦ hns.trans ⟨Namespace.mapBodies_modify (Body.withoutExports_mapComponent hf),
      fun id hid ↦ by rw [Namespace.get?_modify, if_neg hid]⟩) file (.refl _)

/-- Resolving imports writes the import tables of the scopes of the file. -/
theorem Imports.writes_pass (p : Progress) (hns : p.ns.Housed)
    (hm : p.ns.kind? m = some .component) :
    p.ns.Writes Body.withoutImports (fun id ↦ id = m ∨ p.ns.DeclaredIn m id)
      (pass m file p).ns := by
  refine .foldl Progress.ns (fun q v hv ↦ ?_) p
  have hown := Visit.own_of_mem_ofFile hns hm hv
  rw [step_eq]
  refine .modify hown.current_cases (fun b ↦ ?_) q.ns
  cases b <;> rfl

/-- An attribute that was found is written with its class. -/
theorem Finding.writes_add {own : Id → Prop} {owner : Id} (howner : own owner)
    (label : Attributes.Label) (name : String) (ns : Namespace) (associations : RelationSet) :
    { ns with associations }.Writes Body.withoutAttributes own
      { (member owner label name).add ns with associations } := by
  have hadd : { (member owner label name).add ns with associations } =
      { ns with associations }.modify owner (·.mapClass (·.addAttribute ⟨name, label.text⟩)) := by
    rw [Namespace.modify_eq]
    rfl
  rw [hadd]
  exact .modify howner (Body.withoutAttributes_addAttribute _) _

/-- The pass for attributes writes the attributes of classes of the file, and associations. -/
theorem Attributes.writes_pass (p : Progress) (hns : p.ns.Housed)
    (hm : p.ns.kind? m = some .component) :
    { p.ns with associations := (pass m file p).ns.associations }.Writes Body.withoutAttributes
      (p.ns.Holds m .classes) (pass m file p).ns := by
  have hpass : (pass m file p).ns =
      (Relating.attributes.foundIn p.ns m file).foldl Finding.add p.ns :=
    Relating.attributes.ns_pass m file p
  -- associations are set to the last ones throughout, and so never differ
  have hwrites : ∀ associations : RelationSet,
      { p.ns with associations }.Writes Body.withoutAttributes (p.ns.Holds m .classes)
        { (Relating.attributes.foundIn p.ns m file).foldl Finding.add p.ns with associations } := by
    intro associations
    refine .foldl (fun ns : Namespace ↦ { ns with associations }) (fun ns f hf ↦ ?_) p.ns
    have hmember := Relating.isMember_of_mem_foundIn hf
    cases Relating.attributes.shown_of_mem_foundIn hns hm hf with
    | member howner => exact Finding.writes_add howner.holds _ _ ns associations
    | refines | uses => cases hmember
  rw [hpass]
  exact hwrites _

/-- The passes for inheritance and calls write dependencies. -/
theorem Relating.ns_pass_eq {r : Relating} (hr : r ≠ .attributes) (m : Id) (p : Progress) :
    (r.pass m file p).ns = { p.ns with dependencies := (r.pass m file p).ns.dependencies } := by
  have hfold : ∀ (fs : List Finding) (ns : Namespace), (∀ f ∈ fs, f.isMember = false) →
      fs.foldl Finding.add ns =
        { ns with dependencies := (fs.foldl Finding.add ns).dependencies } := by
    intro fs
    induction fs with
    | nil => exact fun _ _ ↦ rfl
    | cons f rest ih =>
      intro ns hfs
      cases f with
      | dependency r => exact ih _ fun g hg ↦ hfs g (List.mem_cons_of_mem _ hg)
      | member => cases hfs _ List.mem_cons_self
  rw [ns_pass]
  refine hfold _ _ fun f hf ↦ ?_
  rw [isMember_of_mem_foundIn hf]
  exact decide_eq_false hr

end Passes

/-! ### After building -/

/-- **Passes never touch the skeleton.** -/
theorem Namespace.Later.skeleton_eq {built ns : Namespace} (h : built.Later ns) :
    ns.skeleton = built.skeleton := by
  have hfindings : ∀ ns : Namespace, ns.withoutFindings.skeleton = ns.skeleton := fun ns ↦
    skeleton_erase Body.skeleton_withoutFindings ns ∅ ∅ ∅
  have hrelations : ∀ ns : Namespace, ns.withoutRelations.skeleton = ns.skeleton := fun ns ↦
    skeleton_erase (fun b ↦ by cases b <;> rfl) ns ns.dependencies ns.associations ∅
  induction h with
  | refl => rfl
  | @repeated p _ r component file ih =>
    refine Eq.trans ?_ ih
    cases r with
    | exports =>
      exact skeleton_congr Body.skeleton_withoutExports (Exports.writes_pass file component p).frame
    | imports =>
      exact skeleton_congr Body.skeleton_withoutImports
        (Imports.grows_run (Visit.ofFile p.ns {} component file) p).frame
  | @relating p _ r component file ih =>
    rw [← hfindings, r.withoutFindings_pass, hfindings, ih]
  | @condense ns _ ih => rw [← hrelations, withoutRelations_condense, hrelations, ih]

section Analysis

variable {project : Project} {built ns : Namespace} {a : Analysis}

/-- A namespace whose imports were resolved comes after what was built. -/
theorem Project.Imported.later (h : project.Imported built ns) : built.Later ns :=
  h.induction built.Later (fun r component file _ hp ↦ hp.repeated r component file) .refl

/-- What an analysis ends with comes after what was built. -/
theorem Project.later_of_analyze (hbuild : project.build = .ok built)
    (h : project.analyze = .ok a) : built.Later a.ns := by
  obtain ⟨built', ns, attributed, related, called, himported, hattributes, hinheritance, hcalls,
    hns⟩ := Project.exists_imported h
  cases himported.build.symm.trans hbuild
  have hrun : ∀ {r : Relating} {ns ns' : Namespace}, project.runOnce r.pass ns = .ok ns' →
      built.Later ns → built.Later ns' := by
    intro r ns ns' hok hlater
    rw [← (Project.runOnce_eq_ok hok).2]
    exact (hlater.runsStay project).relating r 0
  have hattributed := hrun (r := .attributes) hattributes himported.later
  have hrelated := hrun (r := .inheritance) hinheritance hattributed
  have hcalled := hrun (r := .calls) hcalls hrelated
  rw [hns]
  exact hcalled.condense

/-- **A file writes its own scopes.** From the end of building to the end of an analysis, and after
any passes over files in between, the skeleton is the one that was built: the entities with their
names, kinds, declarations, members and parameters, the root and the source files. The pass over the
file of a component changes, for export lists, those of the component; for imports, the import
tables of the component and of what is declared in it; for attributes, those of the classes of the
component, and associations; for inheritance and for calls, dependencies; and nothing else. -/
theorem file_writes_own_scopes (h : project.build = .ok built) :
    (∀ a, project.analyze = .ok a → built.Later a.ns) ∧
    (∀ ns, built.Later ns → ns.skeleton = built.skeleton ∧
      ∀ f ∈ ns.sources, ns.kind? f.component = some .component) ∧
    ∀ ns, built.Later ns → ∀ m, ns.kind? m = some .component → ∀ (file : List Stmt) (count : Nat),
      ns.Writes Body.withoutExports (· = m) (Exports.pass m file ⟨ns, count⟩).ns ∧
      ns.Writes Body.withoutImports (fun id ↦ id = m ∨ ns.DeclaredIn m id)
        (Imports.pass m file ⟨ns, count⟩).ns ∧
      { ns with associations := (Attributes.pass m file ⟨ns, count⟩).ns.associations }.Writes
        Body.withoutAttributes (ns.Holds m .classes) (Attributes.pass m file ⟨ns, count⟩).ns ∧
      (Inheritance.pass m file ⟨ns, count⟩).ns = { ns with
        dependencies := (Inheritance.pass m file ⟨ns, count⟩).ns.dependencies } ∧
      (Calls.pass m file ⟨ns, count⟩).ns = { ns with
        dependencies := (Calls.pass m file ⟨ns, count⟩).ns.dependencies } := by
  refine ⟨fun a ↦ Project.later_of_analyze h, fun ns hlater ↦ ⟨hlater.skeleton_eq, ?_⟩,
    fun ns hlater m hm file count ↦ ?_⟩
  · exact hlater.sameOutline.sourcesLive (Namespace.sound_build h).sourcesLive
  · have hhoused := hlater.sameOutline.housed (Namespace.housed_build h)
    exact ⟨Exports.writes_pass file m ⟨ns, count⟩, Imports.writes_pass file ⟨ns, count⟩ hhoused hm,
      Attributes.writes_pass file ⟨ns, count⟩ hhoused hm,
      Relating.ns_pass_eq file (r := .inheritance) (by decide) m ⟨ns, count⟩,
      Relating.ns_pass_eq file (r := .calls) (by decide) m ⟨ns, count⟩⟩

end Analysis

/-- A class with a method that imports a module and makes an attribute, beside that module. -/
def methodProject : Project where
  name := "p"
  location := "p"
  entries := [
    .file markerName "class N:\n def o(t):\n  from p import w\n  t.y=N()\n".toUTF8,
    .file "w.py" "def u():0\n".toUTF8]
  filter := []

/-- The import in the method is written to the table of the method, and the attribute to the class.
-/
theorem method_writes_own_scope :
    ∃ built, methodProject.build = .ok built ∧ built.kind? 0 = some .component ∧
      (∃ a, methodProject.analyze = .ok a ∧ a.ns.associations.size = 1 ∧
        a.ns.skeleton = built.skeleton) ∧
      built.imported? 2 "w" = none ∧
      let ns := (Imports.pass 0 (methodProject.statements [markerName]) { ns := built }).ns
      ns.imported? 2 "w" = some ⟨"p.w"⟩ ∧
        built.Writes Body.withoutImports (fun id ↦ id = 0 ∨ built.DeclaredIn 0 id) ns := by
  have hbuild : (methodProject.build.toOption.map fun built ↦
      let ns := (Imports.pass 0 (methodProject.statements [markerName]) { ns := built }).ns
      (built.kind? 0, built.imported? 2 "w", ns.imported? 2 "w")) =
      some (some .component, none, some ⟨"p.w"⟩) := by
    decide +kernel
  have hanalyze : (methodProject.analyzeOnce?.map fun ns ↦ ns.associations.size) = some 1 := by
    decide +kernel
  obtain ⟨built, hbuilt, hread⟩ := exists_ok_of_toOption hbuild
  simp only [Prod.mk.injEq] at hread
  obtain ⟨hkind, hbefore, hafter⟩ := hread
  obtain ⟨a, ha, hassociations⟩ := Project.exists_analyze_of_analyzeOnce? hanalyze
  obtain ⟨hlater, hskeleton, hwrites⟩ := file_writes_own_scopes hbuilt
  exact ⟨built, hbuilt, hkind, ⟨a, ha, hassociations, (hskeleton _ (hlater a ha)).1⟩,
    hbefore, hafter, (hwrites built .refl 0 hkind _ 0).2.1⟩

end CodeAtlas
