import CodeAtlas.Proofs.Ownership
import CodeAtlas.Proofs.Refinements

/-!
# What passes find

The passes for attributes, inheritance and calls read scopes and signatures, and add dependencies,
associations and attributes. They read nothing that they add. So what a visit adds can be told from
the namespace that the pass starts with, as a list of *findings* (`Relating.found`), and a pass over
files is nothing but recording these one after another (`Relating.traverse_eq`).

## All but findings

`Namespace.withoutFindings` is a namespace without relations and attributes. What is found at a
visit is the same there (`Relating.found_withoutFindings`), and recording does not change it
(`Finding.withoutFindings_add`). These two facts are all that is needed for the step from one visit
to a file, from a file to all files, and from one pass to a schedule of passes
(`Project.relate_eq`).

## Findings

A finding is a dependency, or an attribute of a class with its label. Adding it changes three parts
of a namespace, each apart from the others: the dependencies, the associations and the attributes of
a class (`Finding.foldl_add`). So an order of findings matters only within each part.

## Where findings belong

What a file adds belongs to its own scopes, which no other file has
(`Relating.shown_of_mem_foundIn`, `Finding.Shown.home?_scope`). `Finding.Shown` lists what the file
of a component may show, whatever its statements are.
-/

namespace CodeAtlas

/-! ### Bodies -/

namespace Namespace

variable {ns ns' : Namespace} {id : Id} {f g : Body → Body}

/-- Changes what all entities hold. -/
def mapBodies (g : Body → Body) (ns : Namespace) : Namespace :=
  { ns with entities := ns.entities.map fun _ e ↦ { e with body := g e.body } }

/-- Changing what all entities hold changes the body of each. -/
theorem get?_mapBodies :
    (ns.mapBodies g).get? id = (ns.get? id).map fun e ↦ { e with body := g e.body } :=
  Std.ExtTreeMap.getElem?_map

theorem mapBodies_mapBodies (f g : Body → Body) :
    (ns.mapBodies f).mapBodies g = ns.mapBodies (g ∘ f) := by
  have hentities : (ns.mapBodies f).entities.map (fun _ e ↦ { e with body := g e.body }) =
      ns.entities.map fun _ e ↦ { e with body := (g ∘ f) e.body } := by
    refine Std.ExtTreeMap.ext_getElem? fun i ↦ ?_
    rw [Std.ExtTreeMap.getElem?_map, Std.ExtTreeMap.getElem?_map]
    show ((ns.mapBodies f).get? i).map _ = _
    rw [get?_mapBodies, Option.map_map]
    rfl
  exact congrArg (fun entities ↦ { ns with entities }) hentities

/-- A change to an entity as one to the table of entities. -/
theorem modify_eq (ns : Namespace) (id : Id) (f : Body → Body) : ns.modify id f = { ns with
    entities := ns.entities.modify id fun e ↦ { e with body := f e.body } } := by
  have hrest : ns.modify id f = { ns with entities := (ns.modify id f).entities } := by
    unfold modify
    split <;> rfl
  have hentities : (ns.modify id f).entities =
      ns.entities.modify id fun e ↦ { e with body := f e.body } := by
    refine Std.ExtTreeMap.ext_getElem? fun i ↦ ?_
    rw [Std.ExtTreeMap.getElem?_modify]
    simp only [Std.LawfulEqOrd.compare_eq_iff_eq]
    exact get?_modify.trans (if_congr eq_comm rfl rfl)
  rw [hrest, hentities]

/-- A change to an entity in what is not seen is not seen. -/
theorem mapBodies_modify (h : ∀ b, g (f b) = g b) :
    (ns.modify id f).mapBodies g = ns.mapBodies g := by
  unfold modify
  split
  · rfl
  · next e he =>
    have hentities : (ns.entities.insert id { e with body := f e.body }).map
        (fun _ e ↦ { e with body := g e.body }) =
        ns.entities.map fun _ e ↦ { e with body := g e.body } := by
      refine Std.ExtTreeMap.ext_getElem? fun i ↦ ?_
      rw [Std.ExtTreeMap.getElem?_map, Std.ExtTreeMap.getElem?_map, getElem?_insert_ite]
      split
      · next hi =>
        have he : ns.entities[i]? = some e := hi ▸ he
        rw [he, Option.map_some, Option.map_some, h]
      · rfl
    exact congrArg (fun entities ↦ { ns with entities }) hentities

end Namespace

/-! ### All but findings -/

/-- A body without what the passes find. -/
def Body.withoutFindings (b : Body) : Body :=
  (b.mapClass fun c ↦ { c with attributes := [] }).mapRelations fun _ ↦ ∅

/-- A namespace without relations and attributes. -/
def Namespace.withoutFindings (ns : Namespace) : Namespace :=
  { ns.mapBodies Body.withoutFindings with
    dependencies := ∅
    associations := ∅
    condensed := ∅ }

section Reading

variable {ns ns' : Namespace} {id : Id}

theorem Namespace.get?_withoutFindings : ns.withoutFindings.get? id =
    (ns.get? id).map fun e ↦ { e with body := e.body.withoutFindings } :=
  get?_mapBodies

/-- What is left keeps the scopes. -/
theorem Namespace.sameScopes_withoutFindings (ns : Namespace) :
    ns.SameScopes ns.withoutFindings := by
  refine ⟨⟨fun id ↦ ?_, fun _ ↦ rfl, rfl, rfl⟩, fun id name ↦ ?_⟩
  · rw [get?_withoutFindings, Option.map_map]
    refine congrArg (Option.map · _) (funext fun e ↦ ?_)
    obtain ⟨_, _, body⟩ := e
    cases body <;> rfl
  · unfold imported? scope?
    rw [get?_withoutFindings]
    rcases ns.get? id with - | ⟨_, _, body⟩
    · rfl
    · cases body <;> rfl

/-- Namespaces that differ in findings only have the same scopes. -/
theorem Namespace.sameScopes_of_withoutFindings (h : ns'.withoutFindings = ns.withoutFindings) :
    ns.SameScopes ns' := by
  have hback := ns'.sameScopes_withoutFindings
  exact (h ▸ ns.sameScopes_withoutFindings).trans
    ⟨hback.toSameOutline.symm, fun id name ↦ (hback.imported id name).symm⟩

/-- The visits to a file do not depend on findings. -/
theorem Visit.ofFile_withoutFindings (ns : Namespace) :
    Visit.ofFile ns.withoutFindings = Visit.ofFile ns := by
  funext reach component file
  refine ofFile_congr_of_enter (funext fun s ↦ funext fun name ↦ ?_) reach component file
  unfold enter
  rw [ns.sameScopes_withoutFindings.childScope_eq]

/-- The receiver of a method does not depend on findings. -/
theorem Attributes.receiver_withoutFindings (ns : Namespace) :
    receiver ns.withoutFindings = receiver ns := by
  funext v
  refine receiver_congr (fun id ↦ ?_) ns.sameScopes_withoutFindings.lookup v
  rw [Namespace.get?_withoutFindings, Option.map_map]
  refine congrArg (Option.map · _) (funext fun e ↦ ?_)
  obtain ⟨_, _, body⟩ := e
  cases body <;> rfl

/-- The label of a value does not depend on findings. -/
theorem Attributes.infer_withoutFindings (ns : Namespace) :
    infer ns.withoutFindings = infer ns := by
  funext current value
  unfold infer
  cases value.bare.calleeName with
  | none => rfl
  | some name =>
    dsimp only
    rw [ns.sameScopes_withoutFindings.resolve_eq]
    cases ns.resolve current ⟨name⟩ with
    | none => rfl
    | some id =>
      rw [Option.bind_some, Option.bind_some, Namespace.get?_withoutFindings]
      rcases ns.get? id with - | ⟨_, _, body⟩
      · rfl
      · cases body <;> rfl

/-- What a call uses does not depend on findings. -/
theorem Calls.target_withoutFindings (ns : Namespace) :
    target ns.withoutFindings = target ns := by
  have hused : used ns.withoutFindings = used ns := by
    funext id
    unfold used
    rw [Namespace.get?_withoutFindings]
    rcases ns.get? id with - | ⟨_, _, body⟩
    · rfl
    · cases body <;> rfl
  funext current callee
  rw [target, ns.sameScopes_withoutFindings.resolve_eq, hused, target]

end Reading

/-! ### Findings -/

/-- Something that a pass finds: a dependency, or an attribute of a class and its label. -/
inductive Finding where
  | dependency (r : Relation)
  | member (owner : Id) (label : Attributes.Label) (name : String)

namespace Finding

/-- Records a finding. -/
def record (p : Progress) : Finding → Progress
  | dependency r => Inheritance.record p r
  | member owner label name => Attributes.record owner label p name

/-- The scope that a finding belongs to: the source of a dependency, or the class that has the
attribute. -/
def scope : Finding → Id
  | dependency r => r.source
  | member owner _ _ => owner

/-- Whether a finding is an attribute. -/
def isMember : Finding → Bool
  | dependency _ => false
  | member .. => true

/-- The dependency that a finding is. -/
def relation? : Finding → Option Relation
  | dependency r => some r
  | member .. => none

/-- The association that a finding comes with, which is that of a class with one it is part of. -/
def association? : Finding → Option Relation
  | member owner (.cls part _) _ => some (.association part owner .aggregation)
  | _ => none

/-- Enters an attribute with its class. -/
def enter (entities : Std.ExtTreeMap Id Entity) : Finding → Std.ExtTreeMap Id Entity
  | dependency _ => entities
  | member owner label name =>
    entities.modify owner fun e ↦
      { e with body := e.body.mapClass (·.addAttribute ⟨name, label.text⟩) }

/-- Adds a finding to three parts of a namespace, each of which is changed apart from the others. -/
def add (ns : Namespace) (f : Finding) : Namespace :=
  { ns with
    dependencies := f.relation?.elim ns.dependencies ns.dependencies.insert
    associations := f.association?.elim ns.associations ns.associations.insert
    entities := f.enter ns.entities }

/-- Recording is adding, whatever was counted. -/
theorem ns_record (p : Progress) (f : Finding) : (f.record p).ns = f.add p.ns := by
  cases f with
  | dependency r => rfl
  | member owner label name =>
    cases label with
    | cls | primitive | unknown => exact Namespace.modify_eq _ owner _

/-- Recording findings is adding them, whatever was counted. -/
theorem ns_foldl_record (p : Progress) (fs : List Finding) :
    (fs.foldl record p).ns = fs.foldl add p.ns := by
  induction fs generalizing p with
  | nil => rfl
  | cons f rest ih => rw [List.foldl_cons, ih, ns_record, List.foldl_cons]

/-- Findings are added part by part. -/
theorem foldl_add (fs : List Finding) (ns : Namespace) : fs.foldl add ns = { ns with
    dependencies := (fs.filterMap relation?).foldl RelationSet.insert ns.dependencies
    associations := (fs.filterMap association?).foldl RelationSet.insert ns.associations
    entities := fs.foldl enter ns.entities } := by
  have hinsert : ∀ (r : Option Relation) (s : RelationSet),
      r.elim s s.insert = r.toList.foldl RelationSet.insert s := by
    rintro (- | r) s <;> rfl
  have hparts : ∀ {α : Type} (part : Finding → Option α) (f : Finding) (rest : List Finding),
      (f :: rest).filterMap part = (part f).toList ++ rest.filterMap part := by
    intro α part f rest
    rw [List.filterMap_cons]
    cases part f <;> rfl
  induction fs generalizing ns with
  | nil => rfl
  | cons f rest ih =>
    rw [List.foldl_cons, ih, hparts, hparts, List.foldl_append, List.foldl_append, ← hinsert,
      ← hinsert]
    rfl

/-- Adding changes nothing but findings. -/
theorem withoutFindings_add (ns : Namespace) (f : Finding) :
    (f.add ns).withoutFindings = ns.withoutFindings := by
  cases f with
  | dependency r => rfl
  | member owner label name =>
    have hbody : ∀ b : Body, (b.mapClass (·.addAttribute ⟨name, label.text⟩)).withoutFindings =
        b.withoutFindings := by
      intro b
      cases b with
      | cls c =>
        show (Body.cls { c.addAttribute _ with attributes := [], relations := ∅ }) = _
        unfold Class.addAttribute
        split <;> rfl
      | package | component | function => rfl
    have hbodies := @Namespace.mapBodies_modify ns owner _ _ hbody
    rw [Namespace.modify_eq] at hbodies
    exact congrArg (fun ns : Namespace ↦
      { ns with dependencies := ∅, associations := ∅, condensed := ∅ }) hbodies

/-- Adding findings changes nothing but findings. -/
theorem withoutFindings_foldl_add (ns : Namespace) (fs : List Finding) :
    (fs.foldl add ns).withoutFindings = ns.withoutFindings :=
  foldl_keeps Namespace.withoutFindings withoutFindings_add fs ns

end Finding

/-! ### What one visit finds -/

/-- The members of the receiver that a visit assigns, with the label of the value. -/
def Attributes.found (ns : Namespace) (v : Visit) : List Finding :=
  match v.site with
  | .expr e =>
    match (chain e).2, receiver ns v with
    | some value, some (owner, object) =>
      ((chain e).1.filterMap (attributeOf object)).map
        (.member owner (infer ns v.scopes.current value))
    | _, _ => []
  | _ => []

/-- The pass for attributes records what it finds at a visit. -/
theorem Attributes.step_eq_foldl (p : Progress) (v : Visit) :
    step p v = (found p.ns v).foldl Finding.record p := by
  obtain ⟨scopes, unbound, site⟩ := v
  cases site with
  | importModules | importFrom | classDef | funcDef => rfl
  | expr e =>
    cases e with
    | assign text left hint right =>
      unfold step found
      dsimp only
      rcases chain (.assign text left hint right) with ⟨targets, - | value⟩
      · rfl
      · rcases receiver p.ns ⟨scopes, unbound, .expr (.assign text left hint right)⟩ with
          - | ⟨owner, object⟩
        · rfl
        · dsimp only
          rw [List.foldl_map]
          rfl
    | _ => rfl

/-- The use that a visit to a call shows. -/
def Calls.found (ns : Namespace) (v : Visit) : List Relation :=
  match v.site with
  | .expr (.call _ callee _) =>
    (target ns v.scopes.current callee).toList.map fun used ↦
      .dependency v.scopes.current used.1 .uses (some used.2)
  | _ => []

/-- The pass for calls records what it finds at a visit. -/
theorem Calls.step_eq_foldl (p : Progress) (v : Visit) :
    step p v = (found p.ns v).foldl Inheritance.record p := by
  obtain ⟨scopes, unbound, site⟩ := v
  cases site with
  | importModules | importFrom | classDef | funcDef => rfl
  | expr e =>
    cases e with
    | call text callee arguments =>
      unfold step found
      dsimp only
      cases target p.ns scopes.current callee <;> rfl
    | _ => rfl

namespace Relating

variable {project : Project} {ns ns' : Namespace} {m : Id} {file : List Stmt}
  {files : List SourceFile} {p : Progress} {f : Finding}

/-- How far a pass reaches. -/
def reach : Relating → Reach
  | attributes => Attributes.reach
  | inheritance => { definitions := false }
  | calls => {}

/-- What a pass does at a visit. -/
def step : Relating → Progress → Visit → Progress
  | attributes => Attributes.step
  | inheritance => Inheritance.step
  | calls => Calls.step

/-- What a pass finds at a visit. -/
def found : Relating → Namespace → Visit → List Finding
  | attributes => Attributes.found
  | inheritance => fun ns v ↦ (Inheritance.found ns v).map .dependency
  | calls => fun ns v ↦ (Calls.found ns v).map .dependency

/-- A pass over a file goes through the visits to it. -/
theorem pass_eq (r : Relating) (m : Id) (file : List Stmt) (p : Progress) :
    r.pass m file p = (Visit.ofFile p.ns r.reach m file).foldl r.step p := by
  cases r <;> rfl

/-- One visit records what it finds. -/
theorem step_eq_foldl (r : Relating) (p : Progress) (v : Visit) :
    r.step p v = (r.found p.ns v).foldl Finding.record p := by
  cases r with
  | attributes => exact Attributes.step_eq_foldl p v
  | inheritance =>
    rw [found, List.foldl_map]
    exact Inheritance.step_eq_foldl p v
  | calls =>
    rw [found, List.foldl_map]
    exact Calls.step_eq_foldl p v

/-- What is found does not depend on findings. -/
theorem found_withoutFindings (r : Relating) (ns : Namespace) :
    r.found ns.withoutFindings = r.found ns := by
  funext v
  cases r with
  | attributes =>
    show Attributes.found ns.withoutFindings v = Attributes.found ns v
    rw [Attributes.found, Attributes.receiver_withoutFindings, Attributes.infer_withoutFindings,
      Attributes.found]
  | inheritance =>
    show (Inheritance.found ns.withoutFindings v).map _ = (Inheritance.found ns v).map _
    rw [Inheritance.found_congr ns.sameScopes_withoutFindings]
  | calls =>
    show (Calls.found ns.withoutFindings v).map _ = (Calls.found ns v).map _
    rw [Calls.found, Calls.target_withoutFindings, Calls.found]

/-! ### What files show -/

/-- What a pass finds in the file of a component. -/
def foundIn (r : Relating) (ns : Namespace) (m : Id) (file : List Stmt) : List Finding :=
  (Visit.ofFile ns r.reach m file).flatMap (r.found ns)

/-- What a pass finds in a file does not depend on findings. -/
theorem foundIn_congr (h : ns'.withoutFindings = ns.withoutFindings) (r : Relating) :
    r.foundIn ns' = r.foundIn ns := by
  have hfound : r.found ns' = r.found ns := by
    rw [← found_withoutFindings, h, found_withoutFindings]
  have hvisits : Visit.ofFile ns' = Visit.ofFile ns := by
    rw [← Visit.ofFile_withoutFindings, h, Visit.ofFile_withoutFindings]
  funext m file
  rw [foundIn, hvisits, hfound, foundIn]

/-- **A pass over a file** records what the file shows in the namespace at the start. -/
theorem pass_eq_foldl (r : Relating) (m : Id) (file : List Stmt) (p : Progress) :
    r.pass m file p = (r.foundIn p.ns m file).foldl Finding.record p := by
  have hsteps : ∀ (visits : List Visit) (p : Progress),
      visits.foldl r.step p = (visits.flatMap (r.found p.ns)).foldl Finding.record p := by
    intro visits
    induction visits with
    | nil => exact fun _ ↦ rfl
    | cons v rest ih =>
      intro p
      have hfound : r.found (r.step p v).ns = r.found p.ns := by
        rw [← found_withoutFindings, step_eq_foldl, Finding.ns_foldl_record,
          Finding.withoutFindings_foldl_add, found_withoutFindings]
      rw [List.foldl_cons, ih, hfound, List.flatMap_cons, List.foldl_append, ← step_eq_foldl]
  rw [pass_eq, hsteps, foundIn]

/-- A pass over a file adds what the file shows. -/
theorem ns_pass (r : Relating) (m : Id) (file : List Stmt) (p : Progress) :
    (r.pass m file p).ns = (r.foundIn p.ns m file).foldl Finding.add p.ns := by
  rw [pass_eq_foldl, Finding.ns_foldl_record]

/-- A pass over a file changes nothing but findings. -/
theorem withoutFindings_pass (r : Relating) (m : Id) (file : List Stmt) (p : Progress) :
    (r.pass m file p).ns.withoutFindings = p.ns.withoutFindings := by
  rw [ns_pass, Finding.withoutFindings_foldl_add]

/-- What a pass finds in files, one after another. -/
def foundInFiles (project : Project) (r : Relating) (ns : Namespace) (files : List SourceFile) :
    List Finding :=
  files.flatMap fun f ↦ r.foundIn ns f.component (project.statements f.path)

/-- **A pass over files** records what the files show. -/
theorem traverse_eq (r : Relating) (h : project.Readable files) (p : Progress) :
    project.traverse r.pass files p =
      ((r.foundInFiles project p.ns files).foldl Finding.record p, none) := by
  have hfiles : ∀ (files : List SourceFile) (p : Progress),
      files.foldl (fun p f ↦ r.pass f.component (project.statements f.path) p) p =
        (r.foundInFiles project p.ns files).foldl Finding.record p := by
    intro files
    induction files with
    | nil => exact fun _ ↦ rfl
    | cons f rest ih =>
      intro p
      have hrest : r.foundIn (r.pass f.component (project.statements f.path) p).ns =
          r.foundIn p.ns := foundIn_congr (r.withoutFindings_pass _ _ p) r
      rw [List.foldl_cons, ih, foundInFiles, hrest, foundInFiles, List.flatMap_cons,
        List.foldl_append, ← pass_eq_foldl]
  rw [Project.traverse_eq_foldl h, hfiles]

end Relating

/-! ### Passes one after another -/

/-- Passes to run, in order, each with the files it goes through. -/
abbrev Schedule := List (Relating × List SourceFile)

namespace Project

variable {project : Project} {ns ns' : Namespace} {schedule : Schedule}

/-- Runs a pass over files, or fails. -/
def takeTurn (project : Project) (ns : Namespace) (turn : Relating × List SourceFile) :
    Except Failure Namespace :=
  match project.traverse turn.1.pass turn.2 { ns } with
  | (progress, none) => .ok progress.ns
  | (_, some failure) => .error failure

/-- Runs the passes of a schedule. -/
def relate (project : Project) (schedule : Schedule) (ns : Namespace) : Except Failure Namespace :=
  schedule.foldlM project.takeTurn ns

/-- What the passes of a schedule find. -/
def foundOn (project : Project) (ns : Namespace) (schedule : Schedule) : List Finding :=
  schedule.flatMap fun turn ↦ turn.1.foundInFiles project ns turn.2

/-- What the passes of a schedule find does not depend on findings. -/
theorem foundOn_congr (h : ns'.withoutFindings = ns.withoutFindings) :
    project.foundOn ns' schedule = project.foundOn ns schedule := by
  simp only [foundOn, Relating.foundInFiles, Relating.foundIn_congr h]

/-- **A schedule** adds what all its passes find in the namespace at the start. -/
theorem relate_eq (h : ∀ turn ∈ schedule, project.Readable turn.2) (ns : Namespace) :
    project.relate schedule ns = .ok ((project.foundOn ns schedule).foldl Finding.add ns) := by
  induction schedule generalizing ns with
  | nil => rfl
  | cons turn rest ih =>
    have hturn : project.takeTurn ns turn =
        .ok ((turn.1.foundInFiles project ns turn.2).foldl Finding.add ns) := by
      rw [takeTurn, turn.1.traverse_eq (h turn List.mem_cons_self)]
      exact congrArg Except.ok (Finding.ns_foldl_record { ns } _)
    refine foldlM_cons_eq_ok_iff.2 ⟨_, hturn, ?_⟩
    refine (ih (fun t ht ↦ h t (List.mem_cons_of_mem _ ht)) _).trans (congrArg Except.ok ?_)
    -- the later passes find what they would have found at the start
    rw [foundOn_congr (Finding.withoutFindings_foldl_add ns _), foundOn, foundOn, List.flatMap_cons,
      List.foldl_append]

/-- The passes in the order of an analysis. -/
def scheduleOf (ns : Namespace) : Schedule :=
  [(.attributes, ns.sources), (.inheritance, ns.sources), (.calls, ns.sources)]

/-- An analysis resolves references, runs the passes in order, and condenses. -/
theorem exists_relate {a : Analysis} (h : project.analyze = .ok a) :
    ∃ built ns called, project.Imported built ns ∧ project.relate (scheduleOf ns) ns = .ok called ∧
      a.ns = called.condense := by
  obtain ⟨built, ns, attributed, related, called, himported, hattributes, hinheritance, hcalls,
    hns⟩ := exists_imported h
  have hturn : ∀ {r : Relating} {before after : Namespace}, before.sources = ns.sources →
      project.runOnce r.pass before = .ok after →
        project.takeTurn before (r, ns.sources) = .ok after ∧ after.sources = ns.sources := by
    intro r before after hsources hok
    refine ⟨?_, ?_⟩
    · rw [takeTurn, ← hsources]
      exact hok
    · rw [← hsources, ← (runOnce_eq_ok hok).2]
      exact @traverse_induction project r.pass before.sources { ns := before }
        (fun after ↦ after.sources = before.sources)
        (fun component file p hp ↦ (r.sameScopes_pass component file p).sources.trans hp) rfl
  obtain ⟨hfirst, hattributed⟩ := hturn (r := .attributes) rfl hattributes
  obtain ⟨hsecond, hrelated⟩ := hturn (r := .inheritance) hattributed hinheritance
  obtain ⟨hthird, -⟩ := hturn (r := .calls) hrelated hcalls
  exact ⟨built, ns, called, himported, foldlM_cons_eq_ok_iff.2 ⟨attributed, hfirst,
    foldlM_cons_eq_ok_iff.2 ⟨related, hsecond, foldlM_cons_eq_ok_iff.2 ⟨called, hthird, rfl⟩⟩⟩, hns⟩

end Project

/-! ### Where findings belong -/

/-- What the pass for attributes finds is an attribute of the class of the receiver. -/
theorem Attributes.exists_of_mem_found {ns : Namespace} {v : Visit} {f : Finding}
    (h : f ∈ found ns v) : ∃ value owner object name, receiver ns v = some (owner, object) ∧
      f = .member owner (infer ns v.scopes.current value) name := by
  unfold found at h
  split at h
  · split at h
    · next value owner object _ hreceiver =>
      obtain ⟨name, -, rfl⟩ := List.mem_map.1 h
      exact ⟨value, owner, object, name, hreceiver, rfl⟩
    · cases h
  · cases h

/-- What the pass for inheritance finds is a refinement of a class definition. -/
theorem Inheritance.exists_of_mem_found {ns : Namespace} {v : Visit} {r : Relation}
    (h : r ∈ found ns v) : ∃ head, r ∈ refinements ns v.scopes.component head := by
  unfold found at h
  split at h
  · next head _ =>
    split at h
    · exact ⟨head, h⟩
    · cases h
  · cases h

/-- What the pass for calls finds is a use of what the callee refers to. -/
theorem Calls.exists_of_mem_found {ns : Namespace} {v : Visit} {r : Relation}
    (h : r ∈ found ns v) : ∃ callee used, target ns v.scopes.current callee = some used ∧
      r = .dependency v.scopes.current used.1 .uses (some used.2) := by
  unfold found at h
  split at h
  · next callee _ _ =>
    obtain ⟨used, hused, rfl⟩ := List.mem_map.1 h
    exact ⟨callee, used, Option.mem_toList.1 hused, rfl⟩
  · cases h

/-- The pass for attributes finds attributes, the others find dependencies. -/
theorem Relating.isMember_of_mem_foundIn {ns : Namespace} {m : Id} {file : List Stmt} {f : Finding}
    {r : Relating} (hf : f ∈ r.foundIn ns m file) : f.isMember = decide (r = .attributes) := by
  obtain ⟨v, -, hf⟩ := List.mem_flatMap.1 hf
  cases r with
  | attributes =>
    obtain ⟨_, _, _, _, -, rfl⟩ := Attributes.exists_of_mem_found hf
    rfl
  | inheritance | calls =>
    obtain ⟨_, -, rfl⟩ := List.mem_map.1 hf
    rfl

namespace Finding

variable {ns : Namespace} {m : Id} {f : Finding}

/-- What the file of a component may show: an attribute of one of its classes, that one of its
classes or functions refines a class, or that one of its scopes uses something. -/
inductive Shown (ns : Namespace) (m : Id) : Finding → Prop
  | member {owner current : Id} {value : Expr} {name : String} (h : ns.Houses m .classes owner) :
    Shown ns m (.member owner (Attributes.infer ns current value) name)
  | refines {source target : Id} {stereotype : Stereotype}
    (h : ns.Houses m .classes source ∨ ns.Houses m .functions source)
    (htarget : ns.kind? target = some .cls) :
    Shown ns m (.dependency (.dependency source target .refines (some stereotype)))
  | uses {s : ScopeStack} {callee : Expr} {used : Id × Stereotype} (h : s.Own ns m)
    (hused : Calls.target ns s.current callee = some used) :
    Shown ns m (.dependency (.dependency s.current used.1 .uses (some used.2)))

/-- What a file shows belongs to a scope of the file. -/
theorem Shown.home?_scope (h : f.Shown ns m) (hc : ns.Consistent)
    (hm : ns.kind? m = some .component) : ns.home? f.scope = some m := by
  cases h with
  | member h => exact (ScopeStack.Own.cls h).home?_current hc hm
  | refines h =>
    rcases h with h | h
    · exact (ScopeStack.Own.cls h).home?_current hc hm
    · exact (ScopeStack.Own.function h).home?_current hc hm
  | uses h => exact h.home?_current hc hm

end Finding

/-- **What passes find.** Whatever the statements of a file are, a pass finds what the file may
show. -/
theorem Relating.shown_of_mem_foundIn {ns : Namespace} {m : Id} {file : List Stmt} {f : Finding}
    (r : Relating) (hns : ns.Housed) (hm : ns.kind? m = some .component)
    (hf : f ∈ r.foundIn ns m file) : f.Shown ns m := by
  obtain ⟨v, hv, hf⟩ := List.mem_flatMap.1 hf
  have hown := Visit.own_of_mem_ofFile hns hm hv
  cases r with
  | attributes =>
    obtain ⟨value, owner, object, name, hreceiver, rfl⟩ := Attributes.exists_of_mem_found hf
    exact .member (hown.houses_of_enclosingClass hm (Attributes.of_receiver hreceiver).2)
  | inheritance =>
    obtain ⟨r, hr, rfl⟩ := List.mem_map.1 hf
    obtain ⟨head, hr⟩ := Inheritance.exists_of_mem_found hr
    obtain ⟨source, target, hsource, htarget, rfl⟩ := Inheritance.mem_refinements_iff.1 hr
    have hfilter := (List.mem_filter.1 htarget).2
    simp only [Bool.and_eq_true, beq_iff_eq] at hfilter
    rw [hown.component_eq] at hsource
    rcases hns.houses_of_childScope hsource with ⟨-, hhouses⟩ | ⟨hkind, -⟩
    · exact .refines hhouses hfilter.2
    · cases hm.symm.trans hkind
  | calls =>
    obtain ⟨r, hr, rfl⟩ := List.mem_map.1 hf
    obtain ⟨callee, used, hused, rfl⟩ := Calls.exists_of_mem_found hr
    exact .uses hown hused

section Imported

variable {project : Project} {built ns : Namespace} {schedule : Schedule} {f : Finding}

/-- Where references were resolved, what is declared is named below what declares it and held by it.
-/
theorem Project.Imported.housed (h : project.Imported built ns) : ns.Housed :=
  h.sameOutline.housed (Namespace.housed_build h.build)

/-- What a schedule finds in source files is what one of these files may show. -/
theorem Project.Imported.shown_of_mem_foundOn (h : project.Imported built ns)
    (hfiles : ∀ turn ∈ schedule, ∀ f ∈ turn.2, f ∈ ns.sources)
    (hf : f ∈ project.foundOn ns schedule) :
    ∃ m, ns.kind? m = some .component ∧ f.Shown ns m := by
  obtain ⟨turn, hturn, hf⟩ := List.mem_flatMap.1 hf
  obtain ⟨file, hfile, hf⟩ := List.mem_flatMap.1 hf
  have hlive := h.sameOutline.sourcesLive (Namespace.sound_build h.build).sourcesLive
  have hm := hlive file (hfiles turn hturn file hfile)
  exact ⟨file.component, hm, turn.1.shown_of_mem_foundIn h.housed hm hf⟩

end Imported

end CodeAtlas
