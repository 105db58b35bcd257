import CodeAtlas.Proofs.Attributes
import CodeAtlas.Proofs.Exports.Frame
import CodeAtlas.Proofs.Imports.Traversal
import CodeAtlas.Proofs.SingleModule
import CodeAtlas.Proofs.SyntaxTrees
import CodeAtlas.Session

/-!
# The namespaces that passes run on

The passes of an analysis run one after another on a namespace that was built. They create no
entities, and only imports change what scopes hold.

## Runs

A pass over a file keeps outlines, and passes that add relations keep scopes as well
(`Repeated.sameOutline_pass`, `Relating.sameScopes_pass`). What passes over single files keep is
kept by whole runs, in which a file may fail, and by repetitions; this is said once, for any set of
namespaces (`Project.RunsStay`, `Project.runsStay`). The namespaces that passes run on are such a
set (`Project.Reaches`).

## Nested definitions

In all these namespaces functions declare nothing (`Reaches.bareFunctions`), and so a definition
inside a function is never entered (`ScopeStack.childScope_of_function`). A definition inside a
class that is no entity is looked up by its bare name in the scopes around it, and may be taken for
a method of that class. So the visits to a file are the planned ones exactly if this does not
happen, or happens to a definition without anything to visit (`visits_planned_iff_nested_stay`).
-/

namespace CodeAtlas

variable {ns ns' : Namespace} {p : Progress}

namespace Namespace

/-! ### Relations -/

/-- A dependency is not seen in scopes. -/
theorem sameScopes_addDependency (ns : Namespace) (r : Relation) :
    ns.SameScopes (ns.addDependency r) :=
  ⟨⟨fun _ ↦ rfl, fun _ ↦ rfl, rfl, rfl⟩, fun _ _ ↦ rfl⟩

theorem sameScopes_addAssociation (ns : Namespace) (r : Relation) :
    ns.SameScopes (ns.addAssociation r) :=
  ⟨⟨fun _ ↦ rfl, fun _ ↦ rfl, rfl, rfl⟩, fun _ _ ↦ rfl⟩

end Namespace

/-! ### The passes -/

/-- Attributes are not seen in scopes. -/
theorem Attributes.sameScopes_step (p : Progress) (v : Visit) :
    p.ns.SameScopes (step p v).ns := by
  have hrecord : ∀ owner label (p : Progress) name,
      p.ns.SameScopes (record owner label p name).ns := fun owner label p name ↦ by
    have hkeeps : Body.Keeps (·.mapClass (·.addAttribute ⟨name, label.text⟩)) :=
      Body.keeps_mapClass (fun c ↦ c.scope_addAttribute _) fun c ↦ c.methods_addAttribute _
    cases label with
    | cls => exact (Namespace.sameScopes_addAssociation p.ns _).modify hkeeps
    | primitive | unknown => exact (Namespace.SameScopes.refl p.ns).modify hkeeps
  rcases step_cases p v with h | ⟨e, owner, object, label, -, -, h⟩
  · rw [h]
    exact .refl _
  · rw [h]
    exact .foldl Progress.ns (.refl _) (hrecord owner label) _

/-- Refinements are not seen in scopes. -/
theorem Inheritance.sameScopes_step (p : Progress) (v : Visit) :
    p.ns.SameScopes (step p v).ns := by
  unfold step
  split
  · split
    · split
      · exact .foldl Progress.ns (.refl _)
          (fun p _ ↦ Namespace.sameScopes_addDependency p.ns _) _
      · exact .refl _
    · exact .refl _
  · exact .refl _

/-- Uses are not seen in scopes. -/
theorem Calls.sameScopes_step (p : Progress) (v : Visit) :
    p.ns.SameScopes (step p v).ns := by
  unfold step
  split
  · split
    · exact Namespace.sameScopes_addDependency p.ns _
    · exact .refl _
  · exact .refl _

/-- Passes that add relations keep the scopes. -/
theorem Relating.sameScopes_pass (r : Relating) (component : Id) (file : List Stmt)
    (p : Progress) : p.ns.SameScopes (r.pass component file p).ns := by
  cases r with
  | attributes => exact .foldl Progress.ns (.refl _) Attributes.sameScopes_step _
  | inheritance => exact .foldl Progress.ns (.refl _) Inheritance.sameScopes_step _
  | calls => exact .foldl Progress.ns (.refl _) Calls.sameScopes_step _

/-- Passes that resolve references keep outlines. -/
theorem Repeated.sameOutline_pass (r : Repeated) (component : Id) (file : List Stmt)
    (p : Progress) : p.ns.SameOutline (r.pass component file p).ns := by
  cases r with
  | exports => exact (Exports.sameScopes_pass component file p).toSameOutline
  | imports => exact .of_frame (Imports.grows_run (Visit.ofFile p.ns {} component file) p).frame

/-! ### Whole runs -/

/-- Whole runs over the files of a project stay among the namespaces with a property: runs of a
pass, with any count to begin with and whether or not a file ends them early, and repetitions of a
pass. -/
structure Project.RunsStay (project : Project) (among : Namespace → Prop) (ns : Namespace) :
    Prop where
  repeated : ∀ (r : Repeated) count, among (project.run r.pass ⟨ns, count⟩).1.ns
  relating : ∀ (r : Relating) count, among (project.run r.pass ⟨ns, count⟩).1.ns
  settled : ∀ r : Repeated, among (project.settle r.pass ns).1.ns

/-- Whole runs stay where passes over single files stay. -/
theorem Project.runsStay {among : Namespace → Prop}
    (hrepeated : ∀ (r : Repeated) component file (p : Progress), among p.ns →
      among (r.pass component file p).ns)
    (hrelating : ∀ (r : Relating) component file (p : Progress), among p.ns →
      among (r.pass component file p).ns)
    (project : Project) (h : among ns) : project.RunsStay among ns where
  repeated r _ := Project.traverse_induction (hrepeated r) h
  relating r _ := Project.traverse_induction (hrelating r) h
  settled r := Project.settleFrom_induction (hrepeated r) h

/-- The namespaces that passes run on: the one that was built, and what a pass over a file makes of
another. -/
inductive Project.Reaches (project : Project) : Namespace → Prop
  | build {ns : Namespace} (h : project.build = .ok ns) : Reaches project ns
  | repeated {p : Progress} (h : Reaches project p.ns) (r : Repeated) (component : Id)
      (file : List Stmt) : Reaches project (r.pass component file p).ns
  | relating {p : Progress} (h : Reaches project p.ns) (r : Relating) (component : Id)
      (file : List Stmt) : Reaches project (r.pass component file p).ns

namespace Project.Reaches

variable {project : Project}

/-- Whole runs lead from one of these namespaces to another. -/
theorem runsStay (h : project.Reaches ns) : project.RunsStay project.Reaches ns :=
  Project.runsStay (fun r component file _ hp ↦ hp.repeated r component file)
    (fun r component file _ hp ↦ hp.relating r component file) project h

/-- In the namespaces that passes run on functions declare nothing. -/
theorem bareFunctions (h : project.Reaches ns) : ns.BareFunctions := by
  induction h with
  | build h => exact (Namespace.sound_build h).bareFunctions
  | @repeated p _ r component file ih =>
    exact (r.sameOutline_pass component file p).bareFunctions ih
  | @relating p _ r component file ih =>
    exact (r.sameScopes_pass component file p).bareFunctions ih

end Project.Reaches

/-! ### Nested definitions -/

/-- Functions that declare nothing have nothing to enter inside. -/
theorem ScopeStack.childScope_of_function {ns : Namespace} (h : ns.BareFunctions) {s : ScopeStack}
    (hkind : ns.kind? s.current = some .function) (name : String) :
    s.childScope ns name = none := by
  obtain ⟨e, he, hfunction⟩ := Option.map_eq_some_iff.1 hkind
  obtain ⟨_, _, body⟩ := e
  cases body with
  | package | component | cls => cases hfunction
  | function f =>
    have hscope : ns.scope? s.current = some f.scope := by
      rw [Namespace.scope?, he]
      rfl
    have hdeclared : f.scope.declared = ∅ := h s.current f (by rw [he]; rfl)
    rw [childScope, hscope]
    simp [hdeclared]

/-- **Definitions that are not entities.** The visits to a file are those planned, where the body of
a nested definition is visited in the scopes around the definition, exactly if the pass does not
enter definitions or each nested definition stays: what is around it declares nothing of its name,
or its body has nothing to visit. Definitions inside functions always stay. If all stay, then
attributes are added to a class only from functions that stand directly in it. -/
theorem visits_planned_iff_nested_stay (ns : Namespace) (component : Id) (file : List Stmt) :
    (∀ reach : Reach,
      Visit.ofFile ns reach component file = Visit.plannedFile ns reach component file ↔
        (reach.definitions → ∀ d ∈ Nested.ofFile ns component file, d.Stays ns reach)) ∧
    (∀ reach : Reach, reach.definitions → ∀ d ∈ Nested.ofFile ns component file, ∃ unbound,
      Visit.plannedList ns reach ⟨.inner, d.scopes⟩ unbound d.body <:+:
          Visit.plannedFile ns reach component file ∧
        ∀ v ∈ Visit.plannedList ns reach ⟨.inner, d.scopes⟩ unbound d.body, v.scopes = d.scopes) ∧
    (∀ project : Project, project.Reaches ns → ∀ d ∈ Nested.ofFile ns component file,
      ns.kind? d.scopes.current = some .function → ∀ reach, d.Stays ns reach) ∧
    (ns.kind? component = some .component →
      (∀ d ∈ Nested.ofFile ns component file, d.Stays ns Attributes.reach) →
      ∀ count id member,
        (Attributes.pass component file { ns, count }).ns.HasAttribute id member →
          ns.HasAttribute id member ∨
            ∃ method v, Visit.InMethod ns Attributes.reach component file id method v ∧
              Attributes.Assigns ns v id member) := by
  refine ⟨fun reach ↦ Visit.ofFile_eq_plannedFile_iff, fun reach hreach d hd ↦ ?_,
    fun project hproject d _ hkind reach ↦ ?_, fun hkind hstay count id member h ↦ ?_⟩
  · obtain ⟨unbound, hinfix⟩ := Visit.planned_infix_of_mem_nested hreach hd
    exact ⟨unbound, hinfix, fun v ↦ Visit.scopes_of_mem_plannedList⟩
  · exact .inl (ScopeStack.childScope_of_function hproject.bareFunctions hkind _)
  · have hplanned : Visit.ofFile ns Attributes.reach component file =
        Visit.plannedFile ns Attributes.reach component file :=
      Visit.ofFile_eq_plannedFile_iff.2 fun _ ↦ hstay
    rcases Attributes.hasAttribute_run h with h | ⟨v, hv, hassigns⟩
    · exact .inl h
    · have ⟨_, _, _, hreceiver, _⟩ := hassigns
      dsimp only at hv
      rw [hplanned] at hv
      obtain ⟨method, hmethod⟩ := Attributes.inMethod_of_receiver hkind hv hreceiver
      exact .inr ⟨method, v, hmethod, hassigns⟩

/-- A class whose method assigns a member of its receiver inside a function of its own. -/
def innerText : String :=
  "class C:\n def m(self):\n  def g():\n   self.x=1\n"

/-- The statements of the module. -/
def innerStatements : List Stmt :=
  let self : Ident := ⟨"self", by decide⟩
  [.classDef ⟨⟨"C", by decide⟩, [], [], []⟩
    [.funcDef ⟨⟨"m", by decide⟩, [], [], [⟨some self, []⟩], []⟩
      [.funcDef ⟨⟨"g", by decide⟩, [], [], [], []⟩
        [.simple [.assign "self.x=1" (.member "self.x" (.name self) ⟨"x", by decide⟩) none
          (some (.number "1" true))]]]]]

theorem ofText?_innerText : Stmt.ofText? innerText = some innerStatements := by
  decide +kernel

/-- The attribute is added to the class, and comes from the method that the function stands in. -/
theorem attribute_of_inner_function :
    let ns := moduleNamespace "p" innerStatements
    (singleModule "p" innerText).Reaches ns ∧ ¬ ns.HasAttribute 1 "x" ∧
      (Attributes.pass 0 innerStatements { ns }).ns.HasAttribute 1 "x" ∧
      ∃ method v, Visit.InMethod ns Attributes.reach 0 innerStatements 1 method v ∧
        Attributes.Assigns ns v 1 "x" := by
  have hreaches : (singleModule "p" innerText).Reaches (moduleNamespace "p" innerStatements) :=
    .build ((oneModule_singleModule "p" ofText?_innerText).build_eq (by decide +kernel))
  have hlacks : ¬ (moduleNamespace "p" innerStatements).HasAttribute 1 "x" := by decide +kernel
  have hhas : (Attributes.pass 0 innerStatements
      { ns := moduleNamespace "p" innerStatements }).ns.HasAttribute 1 "x" := by decide +kernel
  have hinner : ∀ d ∈ Nested.ofFile (moduleNamespace "p" innerStatements) 0 innerStatements,
      (moduleNamespace "p" innerStatements).kind? d.scopes.current = some .function := by
    decide +kernel
  obtain ⟨-, -, hstay, hattributes⟩ :=
    visits_planned_iff_nested_stay (moduleNamespace "p" innerStatements) 0 innerStatements
  have hmethods := hattributes (by decide +kernel)
    (fun d hd ↦ hstay _ hreaches d hd (hinner d hd) _) 0 1 "x" hhas
  exact ⟨hreaches, hlacks, hhas, hmethods.resolve_left hlacks⟩

/-- A method of an inner class is taken for the method of the outer class that has its name. -/
example :
    let self : Ident := ⟨"self", by decide⟩
    let m : FunctionHead := ⟨⟨"m", by decide⟩, [], [], [⟨some self, []⟩], []⟩
    let file : List Stmt :=
      [.classDef ⟨⟨"C", by decide⟩, [], [], []⟩
        [.funcDef m [],
          .classDef ⟨⟨"D", by decide⟩, [], [], []⟩
            [.funcDef m [.simple [.assign "self.x = 1"
              (.member "self.x" (.name self) ⟨"x", by decide⟩) none (some (.number "1" true))]]]]]
    (Attributes.pass 0 file { ns := moduleNamespace "p" file }).ns.HasAttribute 1 "x" := by
  decide +kernel

end CodeAtlas
